import TronUpgrades.Hardhat.StorageLocation

/-!
# Mentions of a namespace

What the census takes for a namespace is the word behind the first mention of
the tag in a documentation text, wherever on its line that stands. Where the
first mention is `Straight` it is the engine's annotation
(`storageLocation_straight`); where there is none, neither is an annotation.
-/

namespace TronUpgrades.Validation

open Hardhat Regex

-- ---------------------------------------------------------------------------
-- Mentions
-- ---------------------------------------------------------------------------

/-- The white space and the word behind the tag that a text begins with. -/
def mentionAt (text : List Char) : Option (List Char × List Char) :=
  let rest := text.drop annotation.length
  if annotation.isPrefixOf text ∧ rest.head?.any isSpace ∧ rest.dropWhile isSpace ≠ [] then
    some (rest.takeWhile isSpace, (rest.dropWhile isSpace).takeWhile fun c => !isSpace c)
  else none

/-- Nothing is mentioned before this. -/
def FirstMention (text before gap word : List Char) : Prop :=
  ∃ start, text = before ++ start ∧ mentionAt start = some (gap, word) ∧
    ∀ front back, before = front ++ back → back ≠ [] → mentionAt (back ++ start) = none

/-- The mention begins its line, after white space; a space follows the tag; and
the word is not a tag at the start of a later line. -/
structure Straight (before gap word : List Char) : Prop where
  line : ∀ c ∈ before.reverse.takeWhile (!isTerminator ·), isSpace c = true
  space : gap.head? = some ' '
  apart : (∃ c ∈ gap, isTerminator c = true) → beginsTag word = false

/-- The word that a text mentions first. -/
def Names (text word : List Char) : Prop := ∃ before gap, FirstMention text before gap word

/-- The word is mentioned first, and not where the engine would look. -/
def Astray (text word : List Char) : Prop :=
  ∃ before gap, FirstMention text before gap word ∧ ¬ Straight before gap word

section
variable {text start before gap word : List Char} {c : Char}

theorem mentionAt_nil : mentionAt [] = none := by decide

theorem annotatedNamespace_cons : annotatedNamespace (c :: text) =
    ((mentionAt (c :: text)).map (·.2)).or (annotatedNamespace text) := by
  rw [annotatedNamespace, mentionAt]
  split <;> simp

theorem FirstMention.here (h : mentionAt text = some (gap, word)) : FirstMention text [] gap word := by
  refine ⟨text, rfl, h, fun front back hnil hne => ?_⟩
  exact absurd (List.append_eq_nil_iff.mp hnil.symm).2 hne

/-- Where nothing is mentioned at once, the first mention is the rest's. -/
theorem firstMention_cons (h : mentionAt (c :: text) = none) :
    FirstMention (c :: text) before gap word ↔
      ∃ behind, before = c :: behind ∧ FirstMention text behind gap word := by
  constructor
  · rintro ⟨start, htext, hmention, hfirst⟩
    cases before with
    | nil =>
      rw [List.nil_append] at htext
      rw [← htext, h] at hmention
      cases hmention
    | cons c' behind =>
      obtain ⟨rfl, rfl⟩ := List.cons.inj htext
      exact ⟨behind, rfl, start, rfl, hmention, fun front back hbehind hne =>
        hfirst (c :: front) back (by rw [hbehind, List.cons_append]) hne⟩
  · rintro ⟨behind, rfl, start, rfl, hmention, hfirst⟩
    refine ⟨start, rfl, hmention, fun front back hbehind hne => ?_⟩
    cases front with
    | nil => rwa [← List.nil_append back, ← hbehind]
    | cons c' front => exact hfirst front back (List.cons.inj hbehind).2 hne

theorem names_here (h : mentionAt text = some (gap, word)) {other : List Char} :
    Names text other ↔ other = word := by
  constructor
  · rintro ⟨before, gap', start, htext, hmention, hfirst⟩
    cases before with
    | nil =>
      rw [List.nil_append] at htext
      rw [← htext, h] at hmention
      cases hmention
      rfl
    | cons c before =>
      have hnone := hfirst [] (c :: before) rfl (List.cons_ne_nil c before)
      rw [← htext, h] at hnone
      cases hnone
  · rintro rfl
    exact ⟨[], gap, .here h⟩

theorem annotatedNamespace_iff : annotatedNamespace text = some word ↔ Names text word := by
  induction text with
  | nil =>
    refine ⟨by rintro ⟨⟩, ?_⟩
    rintro ⟨before, gap, start, htext, hmention, -⟩
    rw [(List.append_eq_nil_iff.mp htext.symm).2, mentionAt_nil] at hmention
    cases hmention
  | cons c text ih =>
    rw [annotatedNamespace_cons]
    cases hmention : mentionAt (c :: text) with
    | some mention => simp [names_here hmention, eq_comm]
    | none =>
      simp only [Option.map_none, Option.none_or, ih, Names, firstMention_cons hmention]
      constructor
      · rintro ⟨before, gap, h⟩
        exact ⟨c :: before, gap, before, rfl, h⟩
      · rintro ⟨-, gap, before, -, h⟩
        exact ⟨before, gap, h⟩

theorem annotatedNamespace_none (h : annotatedNamespace text = none) {front back : List Char}
    (htext : text = front ++ back) : mentionAt back = none := by
  induction front generalizing text with
  | nil =>
    rw [List.nil_append] at htext
    subst htext
    cases text with
    | nil => exact mentionAt_nil
    | cons c text =>
      rw [annotatedNamespace_cons] at h
      simp_all
  | cons c front ih =>
    rw [htext, List.cons_append, annotatedNamespace_cons] at h
    refine ih ?_ rfl
    simp_all

/-- What a mention is made of. -/
structure Mention (start gap word rest : List Char) : Prop where
  text : start = annotation ++ (gap ++ (word ++ rest))
  gap_space : ∀ c ∈ gap, isSpace c = true
  word_ne : word ≠ []
  word_space : ∀ c ∈ word, isSpace c = false
  rest_space : rest.head?.all isSpace = true

theorem mentionAt_some (h : mentionAt start = some (gap, word)) : ∃ rest, Mention start gap word rest := by
  unfold mentionAt at h
  dsimp only at h
  split at h
  · rename_i hmention
    obtain ⟨hpre, -, hrest⟩ := hmention
    obtain ⟨after, rfl⟩ := List.isPrefixOf_iff_prefix.mp hpre
    rw [List.drop_left] at h hrest
    cases h
    refine ⟨(after.dropWhile isSpace).dropWhile fun c => !isSpace c, ?_, ?_, ?_, ?_, ?_⟩
    · rw [List.takeWhile_append_dropWhile, List.takeWhile_append_dropWhile]
    · exact fun c hc => List.mem_takeWhile_imp hc
    · have hfirst := List.head?_dropWhile_not isSpace after
      obtain ⟨c, more, hmore⟩ := List.exists_cons_of_ne_nil hrest
      rw [hmore] at hfirst ⊢
      have hc : isSpace c = false := hfirst
      simp [hc]
    · intro c hc
      simpa using List.mem_takeWhile_imp hc
    · have hfirst := List.head?_dropWhile_not (fun c => !isSpace c) (after.dropWhile isSpace)
      cases hhead : ((after.dropWhile isSpace).dropWhile fun c => !isSpace c).head? with
      | none => rfl
      | some c => simpa [hhead] using hfirst
  · cases h

-- ---------------------------------------------------------------------------
-- What the engine reads of a mention
-- ---------------------------------------------------------------------------

theorem isTerminator_of_not_space (h : isSpace c = false) : isTerminator c = false := by
  cases hc : isTerminator c with
  | false => rfl
  | true => rw [isSpace_of_isTerminator hc] at h; cases h

/-- Blank text before a tag at the start of a line does not hide it. -/
theorem beginsTag_gap {rest : List Char} (hgap : ∀ c ∈ gap, isSpace c = true) :
    beginsTag (gap ++ rest) = beginsTag rest := by
  have hdrop : (gap ++ rest).dropWhile isSpace = rest.dropWhile isSpace := by
    rw [List.dropWhile_append, List.dropWhile_eq_nil_iff.mpr hgap]
    rfl
  rw [beginsTag, hdrop, beginsTag]

theorem beginsTag_word {rest : List Char} (h : Mention start gap word rest) :
    beginsTag (word ++ rest) = beginsTag word := by
  obtain ⟨c, more, rfl⟩ := List.exists_cons_of_ne_nil h.word_ne
  have hc : isSpace c = false := h.word_space c List.mem_cons_self
  have hrest := h.rest_space
  simp only [beginsTag, List.cons_append, List.dropWhile_cons, hc, Bool.false_eq_true, if_false]
  by_cases hat : c = '@'
  · subst hat
    cases more with
    | cons d more => rfl
    | nil =>
      cases rest with
      | nil => rfl
      | cons t rest => exact isWord_of_isSpace hrest
  · simp [hat]

/-- The run of a straight mention goes past its word. -/
theorem wordsWithin_straight {rest : List Char} (h : Mention start (' ' :: gap) word rest)
    (hapart : (∃ c ∈ gap, isTerminator c = true) → beginsTag word = false) :
    word ∈ wordsWithin ⟨some ' ', gap ++ (word ++ rest)⟩ := by
  have hgap : ∀ c ∈ gap, isSpace c = true := fun c hc => h.gap_space c (List.mem_cons_of_mem _ hc)
  have hstop : ∀ front back, gap ++ word = front ++ back → back ≠ [] →
      tagAhead ⟨front.getLast?.or (some ' '), back ++ rest⟩ = false := by
    intro front back hsplit hne
    cases hahead : tagAhead ⟨front.getLast?.or (some ' '), back ++ rest⟩ with
    | false => rfl
    | true =>
      obtain ⟨hline, htag⟩ := Bool.and_eq_true_iff.mp hahead
      -- Only the white space before the word has the start of a line in it.
      obtain ⟨t, ht, hterminator⟩ : ∃ t, front.getLast? = some t ∧ isTerminator t = true := by
        cases hlast : front.getLast? with
        | none =>
          have hspace : isTerminator ' ' = false := by decide
          simp [Place.atLineStart, hlast, hspace] at hline
        | some t => exact ⟨t, rfl, by simpa [Place.atLineStart, hlast] using hline⟩
      have hmem := List.mem_of_getLast? ht
      obtain ⟨blank, rfl, hsub⟩ : ∃ blank, back = blank ++ word ∧ front ++ blank = gap := by
        rcases List.append_eq_append_iff.mp hsplit with ⟨inside, hfront, hword⟩ | ⟨blank, hgap', hback⟩
        · cases inside with
          | nil => exact ⟨[], by simpa using hword.symm, by simpa using hfront⟩
          | cons c inside =>
            rw [hfront, List.getLast?_append_of_ne_nil _ (List.cons_ne_nil c inside)] at ht
            have hword' : t ∈ word := hword ▸ List.mem_append_left _ (List.mem_of_getLast? ht)
            rw [isTerminator_of_not_space (h.word_space t hword')] at hterminator
            cases hterminator
        · exact ⟨blank, hback, hgap'.symm⟩
      have hgap' : t ∈ gap := hsub ▸ List.mem_append_left _ hmem
      have hblank : ∀ c ∈ blank, isSpace c = true :=
        fun c hc => hgap c (hsub ▸ List.mem_append_right _ hc)
      rw [List.append_assoc, beginsTag_gap hblank, beginsTag_word h,
        hapart ⟨t, hgap', hterminator⟩] at htag
      cases htag
  have hpast := Place.runTo_past rest hstop
  let stop := Place.runTo tagAhead (some ' ') (gap ++ word ++ rest)
  have htaken : taken ⟨some ' ', gap ++ word ++ rest⟩ stop =
      gap ++ word ++ taken ⟨some ' ', rest⟩ stop := taken_past hpast
  have hhead : (taken ⟨some ' ', rest⟩ stop).head?.all isSpace = true := by
    have hrest := h.rest_space
    rw [taken, List.head?_take]
    split
    · rfl
    · exact hrest
  refine List.mem_append_left _ ?_
  rw [← List.append_assoc]
  show word ∈ words isSpace (taken ⟨some ' ', gap ++ word ++ rest⟩ stop)
  rw [htaken, List.append_assoc, words_first hgap h.word_ne h.word_space hhead]
  exact List.mem_cons_self

/-- Lines before leave the words of the rest as they are, where these do not
depend on what is open. -/
theorem mem_argumentWords_append {front back : List (List Char)}
    (h : ∀ within, word ∈ argumentWords within back) (within : Bool) :
    word ∈ argumentWords within (front ++ back) := by
  induction front generalizing within with
  | nil => exact h within
  | cons line front ih =>
    rw [List.cons_append, argumentWords]
    split
    · exact List.mem_append_right _ (ih _)
    · split
      · exact ih _
      · exact List.mem_append_right _ (ih _)

/-- Where a text opens a run at once, its words are the same within one. -/
theorem argumentWords_opens {after : List Char} (h : text.dropWhile isSpace = opening ++ after)
    (within : Bool) : argumentWords within (lines text) = wordsWithin ⟨some ' ', after⟩ := by
  have hstart : (Place.mk none text).atLineStart = true := rfl
  obtain ⟨hfrom, hwithin⟩ := words_lines hstart
  have hopens := wordsFrom_opens hstart h
  have htag : tagAhead ⟨none, text⟩ = true := beginsTag_of_opened (openedBy_some.mpr h)
  cases within with
  | false => rw [← hfrom, hopens]
  | true => rw [← hwithin, wordsWithin_tag htag, hopens]

/-- The line on which a text ends. -/
theorem lastLine (text : List Char) : ∃ front line, text = front ++ line ∧
    (∀ c ∈ line, c ∈ text.reverse.takeWhile (!isTerminator ·)) ∧
    (front = [] ∨ ∃ init t, front = init ++ [t] ∧ isTerminator t = true) := by
  let ends := fun c => !isTerminator c
  have hsplit : text.reverse.takeWhile ends ++ text.reverse.dropWhile ends = text.reverse :=
    List.takeWhile_append_dropWhile
  refine ⟨(text.reverse.dropWhile ends).reverse, (text.reverse.takeWhile ends).reverse, ?_, ?_, ?_⟩
  · rw [← List.reverse_append, hsplit, List.reverse_reverse]
  · exact fun c hc => List.mem_reverse.mp hc
  · have hfirst := List.head?_dropWhile_not ends text.reverse
    cases hdrop : text.reverse.dropWhile ends with
    | nil => exact .inl rfl
    | cons t init =>
      rw [hdrop] at hfirst
      exact .inr ⟨init.reverse, t, by simp, by simpa [ends] using hfirst⟩

theorem dropWhile_annotation (after : List Char) :
    ( annotation ++ after).dropWhile isSpace = annotation ++ after := by
  have htag : annotation = '@' :: annotation.tail := by decide
  have hat : isSpace '@' = false := by decide
  rw [htag, List.cons_append, List.dropWhile_cons, hat]
  rfl

theorem argumentWords_straight (hmention : FirstMention text before gap word)
    (hstraight : Straight before gap word) : word ∈ argumentWords false (lines text) := by
  obtain ⟨start, rfl, hstart, -⟩ := hmention
  obtain ⟨rest, h⟩ := mentionAt_some hstart
  obtain ⟨gap, rfl⟩ := List.head?_eq_some_iff.mp hstraight.space
  obtain ⟨front, blank, rfl, hblank, hfront⟩ := lastLine before
  have hspace : ∀ c ∈ blank, isSpace c = true := fun c hc => hstraight.line c (hblank c hc)
  have hopens : (blank ++ start).dropWhile isSpace = opening ++ (gap ++ (word ++ rest)) := by
    rw [List.dropWhile_append, List.dropWhile_eq_nil_iff.mpr hspace, h.text]
    simp only [List.isEmpty_nil, if_true, dropWhile_annotation, opening, List.append_assoc,
      List.cons_append, List.nil_append]
  have hapart : (∃ c ∈ gap, isTerminator c = true) → beginsTag word = false := by
    rintro ⟨c, hc, hterminator⟩
    exact hstraight.apart ⟨c, List.mem_cons_of_mem _ hc, hterminator⟩
  have hback : ∀ within, word ∈ argumentWords within (lines (blank ++ start)) := by
    intro within
    rw [argumentWords_opens hopens]
    exact wordsWithin_straight h hapart
  rcases hfront with rfl | ⟨init, t, rfl, ht⟩
  · exact hback false
  · have hlines : lines (init ++ [t] ++ blank ++ start) = lines init ++ lines (blank ++ start) := by
      have hsplit := List.splitOnP_append_cons init (blank ++ start) ht
      simpa [lines] using hsplit
    rw [hlines]
    exact mem_argumentWords_append hback false

-- ---------------------------------------------------------------------------
-- The engine's reading and the first mention
-- ---------------------------------------------------------------------------

/-- The engine's reading of a text is absent or well formed. -/
def Admissible (text : List Char) : Prop :=
  tagged.test text = true → ∃ location, storageLocation text = some location

theorem storageLocation_some {location : List Char} (h : storageLocation text = some location) :
    argumentsOf text = [location] := by
  unfold storageLocation at h
  split at h
  · cases h
  · split at h
    · rename_i harguments
      cases h
      exact harguments
    · cases h

theorem storageLocation_straight (hread : Admissible text) (hmention : FirstMention text before gap word)
    (hstraight : Straight before gap word) : storageLocation text = some word := by
  have hmem := argumentWords_straight hmention hstraight
  rw [← argumentsOf_lines] at hmem
  cases htest : tagged.test text with
  | false =>
    rw [argumentsOf_untagged htest] at hmem
    cases hmem
  | true =>
    obtain ⟨location, hlocation⟩ := hread htest
    rw [storageLocation_some hlocation, List.mem_singleton] at hmem
    rw [hlocation, hmem]

theorem wordsFrom_blank {last : Option Char} (h : ∀ c ∈ text, isSpace c = true) :
    wordsFrom ⟨last, text⟩ = [] := by
  induction text generalizing last with
  | nil => exact wordsFrom_end
  | cons c text ih =>
    have hdrop : (c :: text).dropWhile isSpace = [] := List.dropWhile_eq_nil_iff.mpr h
    have hnone : arguments.firstAt ⟨last, c :: text⟩ = none := by
      have hnil : ¬ opening <+: [] := by decide
      exact firstAt_none (.inr (hdrop ▸ hnil))
    rw [wordsFrom_next hnone rfl]
    exact ih fun c' hc' => h c' (List.mem_cons_of_mem _ hc')

theorem wordsWithin_blank {last : Option Char} (h : ∀ c ∈ text, isSpace c = true) :
    wordsWithin ⟨last, text⟩ = [] := by
  obtain ⟨last', after, hstop⟩ : ∃ last' after, Place.runTo tagAhead last text = ⟨last', after⟩ :=
    ⟨_, _, rfl⟩
  have hsuffix : after <:+ text := by
    have hrun : (Place.runTo tagAhead last text).after <:+ text := Place.runTo_suffix
    rwa [hstop] at hrun
  have htaken : words isSpace (taken ⟨last, text⟩ ⟨last', after⟩) = [] :=
    words_all fun c hc => h c (List.mem_of_mem_take hc)
  simp only [wordsWithin, hstop, htaken, List.nil_append]
  exact wordsFrom_blank fun c hc => h c (hsuffix.subset hc)

theorem mentionAt_none {after : List Char} (h : mentionAt (opening ++ after) = none) :
    ∀ c ∈ after, isSpace c = true := by
  rw [opening, List.append_assoc, mentionAt] at h
  have hspace : isSpace ' ' = true := by decide
  have hpre : annotation.isPrefixOf ( annotation ++ ([' '] ++ after)) = true :=
    List.isPrefixOf_iff_prefix.mpr (List.prefix_append _ _)
  rw [List.drop_left, hpre] at h
  simpa [hspace] using h

/-- Without a mention no run has a word. -/
theorem wordsFrom_unmentioned {last : Option Char}
    (h : ∀ front back, text = front ++ back → mentionAt back = none) :
    wordsFrom ⟨last, text⟩ = [] := by
  induction text generalizing last with
  | nil => exact wordsFrom_end
  | cons c text ih =>
    by_cases hopens : (Place.mk last (c :: text)).atLineStart = true ∧
        opening <+: (c :: text).dropWhile isSpace
    · obtain ⟨hstart, after, hafter⟩ := hopens
      have hsplit : c :: text = (c :: text).takeWhile isSpace ++ (opening ++ after) := by
        rw [hafter, List.takeWhile_append_dropWhile]
      rw [wordsFrom_opens hstart hafter.symm]
      exact wordsWithin_blank (mentionAt_none (h _ _ hsplit))
    · have hnone : arguments.firstAt ⟨last, c :: text⟩ = none := by
        refine firstAt_none ?_
        cases hstart : (Place.mk last (c :: text)).atLineStart with
        | false => exact .inl rfl
        | true => exact .inr fun hpre => hopens ⟨hstart, hpre⟩
      rw [wordsFrom_next hnone rfl]
      exact ih fun front back htext => h (c :: front) back (by rw [htext, List.cons_append])

theorem storageLocation_none (h : annotatedNamespace text = none) : storageLocation text = none := by
  have hnil : argumentsOf text = [] := by
    rw [argumentsOf_eq]
    exact wordsFrom_unmentioned fun front back htext => annotatedNamespace_none h htext
  cases hlocation : storageLocation text with
  | none => rfl
  | some location =>
    rw [storageLocation_some hlocation] at hnil
    cases hnil

end

end TronUpgrades.Validation
