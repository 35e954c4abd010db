import Mathlib.Data.List.Induction
import Mathlib.Data.List.TakeWhile

/-!
# Words

`text.trim().split(/[sep]+/)`: a text split at its runs of separators. Of a
trimmed text that is not empty these are its words, as `words` has them of any
text.
-/

namespace Regex

variable {α : Type}

section
variable (sep : α → Bool)

/-- `text.split(/[sep]+/)` -/
def splitRuns : List α → List (List α)
  | [] => [[]]
  | c :: text =>
    if sep c then
      match text with
      | [] => [[], []]
      | d :: _ => if sep d then splitRuns text else [] :: splitRuns text
    else (splitRuns text).modifyHead (c :: ·)

def trimEnd (text : List α) : List α := (text.reverse.dropWhile sep).reverse

/-- `text.trim()` -/
def trim (text : List α) : List α := trimEnd sep (text.dropWhile sep)

/-- What stands between separators, where there is something. -/
def words (text : List α) : List (List α) := (text.splitOnP sep).filter fun word => !word.isEmpty

end

variable {sep : α → Bool} {c d : α} {text : List α}

@[simp] theorem words_nil : words sep [] = [] := rfl

theorem words_sep (h : sep c = true) : words sep (c :: text) = words sep text := by
  simp [words, List.splitOnP_cons_eq_if_modifyHead, h]

theorem words_append (text : List α) (h : sep c = true) (rest : List α) :
    words sep (text ++ c :: rest) = words sep text ++ words sep rest := by
  simp [words, List.splitOnP_append_cons _ _ h]

theorem words_one (hc : sep c = false) : words sep [c] = [[c]] := by
  simp [words, List.splitOnP_cons_eq_if_modifyHead, hc]

theorem words_end (hc : sep c = false) (hd : sep d = true) :
    words sep (c :: d :: text) = [c] :: words sep (d :: text) := by
  simp [words, List.splitOnP_cons_eq_if_modifyHead, hc, hd]

theorem words_more (hc : sep c = false) (hd : sep d = false) :
    words sep (c :: d :: text) = (words sep (d :: text)).modifyHead (c :: ·) := by
  obtain ⟨first, rest, hsplit⟩ := List.exists_cons_of_ne_nil (List.splitOnP_ne_nil sep text)
  simp [words, List.splitOnP_cons_eq_if_modifyHead, hc, hd, hsplit]

theorem words_dropWhile : words sep (text.dropWhile sep) = words sep text := by
  induction text with
  | nil => rfl
  | cons c text ih =>
    cases hc : sep c with
    | false => simp [hc]
    | true => simp [hc, ih, words_sep]

/-- The word that a text begins with, behind separators. -/
theorem words_first {gap word rest : List α} (hgap : ∀ c ∈ gap, sep c = true) (hne : word ≠ [])
    (hword : ∀ c ∈ word, sep c = false) (hrest : rest.head?.all sep = true) :
    words sep (gap ++ (word ++ rest)) = word :: words sep rest := by
  have hsplit : words sep (word ++ rest) = word :: words sep rest := by
    cases rest with
    | nil => simp [words, List.splitOnP_eq_singleton hword, hne]
    | cons c rest =>
      have hc : sep c = true := hrest
      rw [words_append word hc, words_sep hc]
      simp [words, List.splitOnP_eq_singleton hword, hne]
  induction gap with
  | nil => exact hsplit
  | cons c gap ih =>
    obtain ⟨hc, hgap⟩ := List.forall_mem_cons.mp hgap
    rw [List.cons_append, words_sep hc, ih hgap]

theorem words_all (h : ∀ c ∈ text, sep c = true) : words sep text = [] := by
  rw [← words_dropWhile, List.dropWhile_eq_nil_iff.mpr h, words_nil]

theorem words_trimEnd : words sep (trimEnd sep text) = words sep text := by
  induction text using List.reverseRecOn with
  | nil => rfl
  | append_singleton text c ih =>
    cases hc : sep c with
    | false => simp [trimEnd, hc]
    | true =>
      have htrim : trimEnd sep (text ++ [c]) = trimEnd sep text := by simp [trimEnd, hc]
      rw [htrim, ih, words_append text hc, words_nil, List.append_nil]

theorem words_trim : words sep (trim sep text) = words sep text := by
  rw [trim, words_trimEnd, words_dropWhile]

/-- The pieces are the words, after an empty one where the text begins with a
separator. -/
theorem splitRuns_words (h : text.getLast?.any (!sep ·) = true) :
    splitRuns sep text = (if text.head?.any sep then [[]] else []) ++ words sep text := by
  induction text with
  | nil => simp at h
  | cons c text ih =>
    cases text with
    | nil =>
      have hc : sep c = false := by simpa using h
      simp [splitRuns, hc, words_one]
    | cons d text =>
      have hd := ih (by simpa [List.getLast?_cons_cons] using h)
      rw [splitRuns]
      cases hc : sep c <;> cases hsep : sep d <;>
        simp [hc, hsep, hd, words_sep, words_end, words_more]

theorem trimEnd_last : (trimEnd sep text).getLast?.all (!sep ·) = true := by
  induction text using List.reverseRecOn with
  | nil => rfl
  | append_singleton text c ih =>
    cases hc : sep c with
    | false => simp [trimEnd, hc]
    | true =>
      have htrim : trimEnd sep (text ++ [c]) = trimEnd sep text := by simp [trimEnd, hc]
      rw [htrim, ih]

theorem trimEnd_head {text : List α} (h : text.head?.any sep = false) :
    (trimEnd sep text).head?.any sep = false := by
  induction text using List.reverseRecOn with
  | nil => rfl
  | append_singleton text c ih =>
    cases hc : sep c with
    | false => simpa [trimEnd, hc] using h
    | true =>
      have htrim : trimEnd sep (text ++ [c]) = trimEnd sep text := by simp [trimEnd, hc]
      rw [htrim]
      refine ih ?_
      cases text <;> simp_all

theorem trim_splitRuns (h : trim sep text ≠ []) : splitRuns sep (trim sep text) = words sep text := by
  have hlast : (trim sep text).getLast?.any (!sep ·) = true := by
    have hall : (trim sep text).getLast?.all (!sep ·) = true := trimEnd_last
    rw [List.getLast?_eq_some_getLast h] at hall
    rw [List.getLast?_eq_some_getLast h]
    exact hall
  have hhead : (trim sep text).head?.any sep = false := by
    refine trimEnd_head ?_
    have hfirst := List.head?_dropWhile_not sep text
    cases htext : (text.dropWhile sep).head? <;> simp_all
  rw [splitRuns_words hlast, hhead, words_trim]
  rfl

end Regex
