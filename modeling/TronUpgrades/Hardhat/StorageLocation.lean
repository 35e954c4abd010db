import TronUpgrades.Regex.Match
import TronUpgrades.Regex.Words
import TronUpgrades.Validation.Layout

/-!
# The annotation of a struct

`storageLocationOf` of the Hardhat plugin, on a documentation text: the engine's
reading of `@custom:storage-location`, by two patterns. `storageLocation_eq`
says what the patterns find line by line.
-/

namespace TronUpgrades.Hardhat

open Regex
open Validation (isSpace annotation)

-- ---------------------------------------------------------------------------
-- The patterns
-- ---------------------------------------------------------------------------

/-- `\w` -/
def isWord (c : Char) : Bool := c.isAlphanum || c == '_'

/-- `/^\s*@custom:storage-location(\s|$)/m` -/
def tagged : Pattern :=
  .seq .lineStart (.seq (.star (.char isSpace))
    (.literal annotation (.group (.alt (.char isSpace) .lineEnd))))

/-- `^\s*@\w+` -/
def anyTag : Pattern :=
  .seq .lineStart (.seq (.star (.char isSpace)) (.seq (.char (· == '@')) (.plus isWord)))

/-- The tag and the space that its arguments stand behind. -/
def opening : List Char := annotation ++ [' ']

/-- `(?<args>(?:(?!^\s*@\w+)[^])*)` -/
def argumentRun : Pattern := .group (.star (.seq (.unless anyTag) (.char fun _ => true)))

/-- `/^\s*@custom:storage-location (?<args>…)/gm` -/
def arguments : Pattern :=
  .seq .lineStart (.seq (.star (.char isSpace)) (.literal opening argumentRun))

def argumentsOf (text : List Char) : List (List Char) :=
  (arguments.matchAll text).flatMap fun found =>
    let trimmed := trim isSpace (found.groups.headD [])
    if trimmed.length > 0 then splitRuns isSpace trimmed else []

/-- `storageLocationOf`, from the node's text on. -/
def storageLocation (text : List Char) : Option (List Char) :=
  if !tagged.test text then none
  else match argumentsOf text with
    | [arg] => some arg
    | _ => none

-- ---------------------------------------------------------------------------
-- The lines
-- ---------------------------------------------------------------------------

def lines (text : List Char) : List (List Char) := text.splitOnP isTerminator

/-- What follows the annotation's tag and a space, where the line begins with
them, after white space. -/
def openedBy (line : List Char) : Option (List Char) :=
  let start := line.dropWhile isSpace
  if opening.isPrefixOf start then some (start.drop opening.length) else none

/-- The line begins with a tag, after white space. -/
def beginsTag (line : List Char) : Bool :=
  match line.dropWhile isSpace with
  | '@' :: c :: _ => isWord c
  | _ => false

/-- The words of the runs of arguments, where one may be open: a run goes from
its tag to the next line that begins with any. -/
def argumentWords : Bool → List (List Char) → List (List Char)
  | _, [] => []
  | within, line :: rest =>
    match openedBy line with
    | some first => words isSpace first ++ argumentWords true rest
    | none =>
      if beginsTag line then argumentWords false rest
      else (if within then words isSpace line else []) ++ argumentWords within rest

/-- The one word of all runs, where there is just one. -/
def annotationOf (text : List Char) : Option (List Char) :=
  match argumentWords false (lines text) with
  | [word] => some word
  | _ => none

-- ---------------------------------------------------------------------------
-- What the patterns find at a place
-- ---------------------------------------------------------------------------

theorem isSpace_of_isTerminator {c : Char} (h : isTerminator c = true) : isSpace c = true := by
  simp only [isTerminator, List.contains_cons, Bool.or_eq_true, beq_iff_eq] at h
  rcases h with h | h | h | h | h <;> simp_all [isSpace]

def spaceCodes : List Nat :=
  [0x9, 0xA, 0xB, 0xC, 0xD, 0x20, 0xA0, 0x1680, 0x2028, 0x2029, 0x202F, 0x205F, 0x3000, 0xFEFF] ++
    (List.range 11).map (0x2000 + ·)

theorem isWord_of_isSpace {c : Char} (h : isSpace c = true) : isWord c = false := by
  have hall : ∀ n ∈ spaceCodes, isWord (Char.ofNat n) = false := by decide
  have hmem : c.toNat ∈ spaceCodes := by
    simp only [isSpace, Bool.or_eq_true, Bool.and_eq_true, decide_eq_true_eq,
      List.contains_iff_mem] at h
    refine List.mem_append.mpr (h.imp_right fun hrange => ?_)
    exact List.mem_map.mpr ⟨c.toNat - 0x2000, List.mem_range.mpr (by omega), by omega⟩
  have hc := hall _ hmem
  rwa [Char.ofNat_toNat] at hc

theorem opening_no_terminator : ∀ c ∈ opening, isTerminator c = false :=
  Text.forall_mem_of_all (by decide)

/-- A tag is ahead on this line or, over blank ones, on the first that is not. -/
def tagAhead (place : Place) : Bool := place.atLineStart && beginsTag place.after

section
variable {place : Place} {groups : List (List Char)} {word text : List Char} {rest : Pattern}

theorem begin_at {c : Char} (hc : c ≠ '@') (last : Option Char) :
    (Pattern.seq (.char (· == '@')) rest).ends ⟨⟨last, c :: text⟩, groups⟩ = [] := by
  simp [hc]

theorem space_ne_at {c : Char} (h : isSpace c = true) : c ≠ '@' := by
  rintro rfl
  revert h
  decide

theorem anyTag_ends : (anyTag.ends ⟨place, groups⟩).isEmpty = !tagAhead place := by
  obtain ⟨last, after⟩ := place
  unfold anyTag tagAhead
  cases hline : (Place.mk last after).atLineStart with
  | false => simp [hline]
  | true =>
    have hskip := Place.skip_after isSpace last after
    rw [Pattern.ends_seq]
    simp only [Pattern.ends_lineStart, hline, if_true, List.flatMap_singleton, Bool.true_and]
    rw [Pattern.ends_skip fun last c text groups hc => begin_at (space_ne_at hc) last]
    unfold beginsTag
    rw [← hskip]
    obtain ⟨last, _ | ⟨c, _ | ⟨d, text⟩⟩⟩ := Place.skip isSpace last after
    · simp
    · by_cases hc : c = '@' <;> simp [Pattern.plus, hc]
    · by_cases hc : c = '@'
      · subst hc
        cases hd : isWord d <;> simp [Pattern.plus, hd, Pattern.star_ne_nil]
      · simp [hc]

/-- `^\s*` before a word that begins with the sign. -/
theorem firstAt_line {last : Option Char} (hword : word.head? = some '@')
    (hline : (Place.mk last text).atLineStart = true) :
    (Pattern.seq .lineStart (.seq (.star (.char isSpace)) (.literal word rest))).firstAt
        ⟨last, text⟩ =
      ((Pattern.literal word rest).ends ⟨Place.skip isSpace last text, []⟩).head? := by
  have hbegin : ∀ {c : Char} {text : List Char}, isSpace c = true → ¬ word <+: c :: text := by
    rintro c text hc ⟨after, hafter⟩
    obtain ⟨tail, rfl⟩ := List.head?_eq_some_iff.mp hword
    exact space_ne_at hc (List.cons.inj hafter).1.symm
  unfold Pattern.firstAt
  rw [Pattern.ends_seq]
  simp only [Pattern.ends_lineStart, hline, if_true, List.flatMap_singleton]
  rw [Pattern.ends_skip fun last c text groups hc => Pattern.ends_literal_nil (hbegin hc) groups]

/-- A run of arguments opens here, and ends where a tag is ahead. -/
theorem firstAt_opens {last : Option Char} {after : List Char}
    (hline : (Place.mk last text).atLineStart = true) (h : text.dropWhile isSpace = opening ++ after) :
    arguments.firstAt ⟨last, text⟩ = some ⟨Place.runTo tagAhead (some ' ') after,
      [taken ⟨some ' ', after⟩ (Place.runTo tagAhead (some ' ') after)]⟩ := by
  have hlast : opening.getLast? = some ' ' := by decide
  rw [arguments, firstAt_line rfl hline]
  obtain ⟨last', after', hskip⟩ : ∃ last' after', Place.skip isSpace last text = ⟨last', after'⟩ :=
    ⟨_, _, rfl⟩
  have hafter : after' = opening ++ after := by
    rw [← h, ← Place.skip_after isSpace last text, hskip]
  rw [hskip, hafter, Pattern.ends_literal, hlast, argumentRun, Pattern.ends_group, List.head?_map,
    Pattern.head_run fun place => anyTag_ends]
  rfl

theorem firstAt_none (h : place.atLineStart = false ∨ ¬ opening <+: place.after.dropWhile isSpace) :
    arguments.firstAt place = none := by
  obtain ⟨last, text⟩ := place
  cases hline : (Place.mk last text).atLineStart with
  | false =>
    unfold Pattern.firstAt arguments
    simp [hline]
  | true =>
    have hopen := h.resolve_left (by simp [hline])
    rw [← Place.skip_after isSpace last text] at hopen
    rw [arguments, firstAt_line rfl hline, Pattern.ends_literal_nil hopen]
    rfl

/-- Where arguments are read, the first pattern has found the tag. -/
theorem tagged_none (h : tagged.firstAt place = none) : arguments.firstAt place = none := by
  refine firstAt_none ?_
  obtain ⟨last, text⟩ := place
  cases hline : (Place.mk last text).atLineStart with
  | false => exact .inl rfl
  | true =>
    rw [tagged, firstAt_line rfl hline] at h
    refine .inr fun hopen => ?_
    obtain ⟨after, hafter⟩ := hopen
    obtain ⟨last', after', hskip⟩ : ∃ last' after', Place.skip isSpace last text = ⟨last', after'⟩ :=
      ⟨_, _, rfl⟩
    have hafter' : after' = annotation ++ ' ' :: after := by
      rw [opening, List.append_assoc, List.singleton_append] at hafter
      rw [hafter, ← Place.skip_after isSpace last text, hskip]
    have hspace : isSpace ' ' = true := by decide
    rw [hskip, hafter', Pattern.ends_literal] at h
    simp [hspace] at h

-- ---------------------------------------------------------------------------
-- The words found
-- ---------------------------------------------------------------------------

def foundWords (found : Found) : List (List Char) := words isSpace (found.groups.headD [])

theorem argumentsOf_eq : argumentsOf text =
    (arguments.matchesAt ⟨none, text⟩).flatMap foundWords := by
  unfold argumentsOf
  refine congrArg (List.flatMap · _) (funext fun found => ?_)
  dsimp only
  split
  · rename_i hlength
    exact trim_splitRuns (List.ne_nil_of_length_pos hlength)
  · rename_i hlength
    have hnil : trim isSpace (found.groups.headD []) = [] := by simpa using hlength
    rw [foundWords, ← words_trim, hnil, words_nil]

end

-- ---------------------------------------------------------------------------
-- Line by line
-- ---------------------------------------------------------------------------

/-- The words of the runs that open from a place on. -/
def wordsFrom (place : Place) : List (List Char) := (arguments.matchesAt place).flatMap foundWords

/-- The same, where one is open. -/
def wordsWithin (place : Place) : List (List Char) :=
  let stop := Place.runTo tagAhead place.last place.after
  words isSpace (taken place stop) ++ wordsFrom stop

/-- The start of the next line, behind what ends this one. At the end of the text
there is one more, with nothing on it. -/
def nextLine (tail : List Char) : Place := ⟨some (tail.headD '\n'), tail.tail⟩

section
variable {last : Option Char} {line tail text : List Char}

theorem nextLine_start (h : tail.head?.all isTerminator = true) : (nextLine tail).atLineStart = true := by
  cases tail with
  | nil => decide
  | cons t rest => exact h

theorem wordsFrom_end : wordsFrom ⟨last, []⟩ = [] := by
  have hnil : ¬ opening <+: [] := by decide
  have hnone : arguments.firstAt ⟨last, []⟩ = none := firstAt_none (.inr hnil)
  rw [wordsFrom, Pattern.matchesAt_end hnone rfl]
  rfl

theorem wordsWithin_end : wordsWithin ⟨last, []⟩ = [] := wordsFrom_end

theorem wordsFrom_next {place next : Place} (h : arguments.firstAt place = none)
    (hnext : place.next? = some next) : wordsFrom place = wordsFrom next := by
  rw [wordsFrom, Pattern.matchesAt_next h hnext]
  rfl

theorem atLineStart_some {c : Char} (h : isTerminator c = false) (text : List Char) :
    (Place.mk (some c) text).atLineStart = false := h

/-- Where no run opens at the start of a line, none opens on the line. -/
theorem wordsFrom_line (hline : ∀ c ∈ line, isTerminator c = false)
    (h : arguments.firstAt ⟨last, line ++ tail⟩ = none) :
    wordsFrom ⟨last, line ++ tail⟩ = wordsFrom (nextLine tail) := by
  induction line generalizing last with
  | nil =>
    cases tail with
    | nil => exact wordsFrom_end.trans wordsFrom_end.symm
    | cons t rest => exact wordsFrom_next h rfl
  | cons c line ih =>
    obtain ⟨hc, hline⟩ := List.forall_mem_cons.mp hline
    have hnext : arguments.firstAt ⟨some c, line ++ tail⟩ = none :=
      firstAt_none (.inl (atLineStart_some hc _))
    exact (wordsFrom_next h rfl).trans (ih hline hnext)

theorem tagAhead_some {c : Char} (h : isTerminator c = false) (text : List Char) :
    tagAhead ⟨some c, text⟩ = false := by
  rw [tagAhead, atLineStart_some h, Bool.false_and]

/-- A run that goes on at the start of a line takes the line. -/
theorem wordsWithin_line (hline : ∀ c ∈ line, isTerminator c = false)
    (htail : tail.head?.all isTerminator = true) (h : tagAhead ⟨last, line ++ tail⟩ = false) :
    wordsWithin ⟨last, line ++ tail⟩ = words isSpace line ++ wordsWithin (nextLine tail) := by
  have hstop : ∀ c text, isTerminator c = false → tagAhead ⟨some c, text⟩ = false :=
    fun c text hc => tagAhead_some hc text
  cases tail with
  | nil =>
    rw [List.append_nil] at h ⊢
    have hafter := Place.runTo_last hstop hline h
    obtain ⟨last', after', hrun⟩ : ∃ last' after', Place.runTo tagAhead last line = ⟨last', after'⟩ :=
      ⟨_, _, rfl⟩
    have hnil : after' = [] := by rw [← hafter, hrun]
    rw [wordsWithin]
    simp only [hrun, hnil, wordsFrom_end, nextLine, wordsWithin_end, List.tail_nil]
    simp [taken]
  | cons t rest =>
    have hspace : isSpace t = true := isSpace_of_isTerminator htail
    simp only [wordsWithin, nextLine, List.headD_cons, List.tail_cons,
      Place.runTo_line hstop hline h, taken_line line t Place.runTo_le]
    rw [words_append line hspace, List.append_assoc]

/-- Where a tag is ahead, an open run ends. -/
theorem wordsWithin_tag (h : tagAhead ⟨last, text⟩ = true) :
    wordsWithin ⟨last, text⟩ = wordsFrom ⟨last, text⟩ := by
  have hrun : Place.runTo tagAhead last text = ⟨last, text⟩ := by
    cases text <;> simp [Place.runTo, h]
  simp [wordsWithin, hrun, taken_self]

theorem wordsFrom_opens {after : List Char} (hstart : (Place.mk last text).atLineStart = true)
    (h : text.dropWhile isSpace = opening ++ after) :
    wordsFrom ⟨last, text⟩ = wordsWithin ⟨some ' ', after⟩ := by
  have hlt : (Place.runTo tagAhead (some ' ') after).after.length < text.length := by
    have hle := (List.dropWhile_suffix isSpace (l := text)).length_le
    have hrun : (Place.runTo tagAhead (some ' ') after).after.length ≤ after.length := Place.runTo_le
    have hopening : opening.length = 25 := by decide
    rw [h, List.length_append, hopening] at hle
    omega
  have hne : Place.runTo tagAhead (some ' ') after ≠ ⟨last, text⟩ :=
    fun heq => Nat.ne_of_lt hlt (congrArg (·.after.length) heq)
  rw [wordsFrom, Pattern.matchesAt_found (firstAt_opens hstart h) hne]
  rfl

-- ---------------------------------------------------------------------------
-- A line of the text and a place on it
-- ---------------------------------------------------------------------------

theorem openedBy_some {first : List Char} :
    openedBy line = some first ↔ line.dropWhile isSpace = opening ++ first := by
  simp only [openedBy]
  split
  · rename_i h
    obtain ⟨after, hafter⟩ := List.isPrefixOf_iff_prefix.mp h
    simp [← hafter]
  · rename_i h
    refine ⟨by rintro ⟨⟩, fun heq => absurd ?_ h⟩
    rw [List.isPrefixOf_iff_prefix, heq]
    exact List.prefix_append _ _

theorem openedBy_none (h : openedBy line = none) : ¬ opening <+: line.dropWhile isSpace := by
  rintro ⟨first, hfirst⟩
  rw [openedBy_some.mpr hfirst.symm] at h
  cases h

theorem beginsTag_of_opened {first : List Char} (h : openedBy line = some first) :
    beginsTag line = true := by
  have hopening : opening = '@' :: 'c' :: opening.drop 2 := by decide
  have hword : isWord 'c' = true := by decide
  rw [beginsTag, openedBy_some.mp h, hopening]
  exact hword

theorem dropWhile_blank (hblank : line.dropWhile isSpace = [])
    (htail : tail.head?.all isTerminator = true) :
    (line ++ tail).dropWhile isSpace = tail.tail.dropWhile isSpace := by
  rw [List.dropWhile_append, hblank]
  cases tail with
  | nil => rfl
  | cons t rest => simp [isSpace_of_isTerminator htail]

theorem dropWhile_line (hblank : line.dropWhile isSpace ≠ []) :
    (line ++ tail).dropWhile isSpace = line.dropWhile isSpace ++ tail := by
  rw [List.dropWhile_append, if_neg (by simpa using hblank)]

theorem beginsTag_line (hblank : line.dropWhile isSpace ≠ [])
    (htail : tail.head?.all isTerminator = true) : beginsTag (line ++ tail) = beginsTag line := by
  rw [beginsTag, beginsTag, dropWhile_line hblank]
  obtain ⟨c, start, hstart⟩ := List.exists_cons_of_ne_nil hblank
  rw [hstart]
  by_cases hc : c = '@'
  · subst hc
    cases start with
    | cons d start => rfl
    | nil =>
      cases tail with
      | nil => rfl
      | cons t rest =>
        -- What ends a line is no character of a tag.
        exact isWord_of_isSpace (isSpace_of_isTerminator htail)
  · simp [hc]

theorem opening_line (htail : tail.head?.all isTerminator = true) {start : List Char}
    (h : opening <+: start ++ tail) : opening <+: start := by
  obtain hpre | ⟨more, hmore⟩ := List.prefix_or_prefix_of_prefix h (List.prefix_append start tail)
  · exact hpre
  · rw [← hmore, List.prefix_append_right_inj] at h
    cases more with
    | nil => simp [← hmore]
    | cons c more =>
      -- The line ends inside the tag, which has no line end.
      obtain ⟨after, rfl⟩ := h
      have hc : c ∈ opening := hmore ▸ List.mem_append_right _ List.mem_cons_self
      have hterminator : isTerminator c = true := htail
      rw [opening_no_terminator c hc] at hterminator
      cases hterminator

theorem argumentWords_line (within : Bool) (hline : ∀ c ∈ line, isTerminator c = false)
    (htail : tail.head?.all isTerminator = true) :
    argumentWords within (lines (line ++ tail)) = argumentWords within (line :: lines tail.tail) := by
  cases tail with
  | nil =>
    have hnil : ∀ within, argumentWords within (lines []) = argumentWords within [] := by decide
    rw [List.append_nil, lines, List.splitOnP_eq_singleton hline, List.tail_nil]
    simp only [argumentWords, hnil]
  | cons t rest =>
    rw [lines, List.splitOnP_append_cons_of_forall_mem hline t htail]
    rfl

/-- One line, from what holds at the start of the next. -/
theorem words_step (hstart : (Place.mk last (line ++ tail)).atLineStart = true)
    (hline : ∀ c ∈ line, isTerminator c = false) (htail : tail.head?.all isTerminator = true)
    (hfrom : wordsFrom (nextLine tail) = argumentWords false (lines tail.tail))
    (hwithin : wordsWithin (nextLine tail) = argumentWords true (lines tail.tail)) :
    wordsFrom ⟨last, line ++ tail⟩ = argumentWords false (line :: lines tail.tail) ∧
      wordsWithin ⟨last, line ++ tail⟩ = argumentWords true (line :: lines tail.tail) := by
  by_cases hblank : line.dropWhile isSpace = []
  · have hdrop := dropWhile_blank hblank htail
    have hnext := nextLine_start htail
    have htag : tagAhead ⟨last, line ++ tail⟩ = tagAhead (nextLine tail) := by
      rw [tagAhead, tagAhead, hstart, hnext, beginsTag, hdrop]
      rfl
    have hsame : wordsFrom ⟨last, line ++ tail⟩ = wordsFrom (nextLine tail) := by
      by_cases hopen : opening <+: tail.tail.dropWhile isSpace
      · obtain ⟨after, hafter⟩ := hopen
        rw [wordsFrom_opens hstart (hdrop.trans hafter.symm), nextLine,
          wordsFrom_opens hnext hafter.symm]
      · exact wordsFrom_line hline (firstAt_none (.inr (hdrop ▸ hopen)))
    have hwords : words isSpace line = [] := by rw [← words_dropWhile, hblank, words_nil]
    have hspec : ∀ within, argumentWords within (line :: lines tail.tail) =
        argumentWords within (lines tail.tail) := by
      have hopened : openedBy line = none := by
        have hnil : opening.isPrefixOf ([] : List Char) = false := by decide
        simp [openedBy, hblank, hnil]
      intro within
      simp [argumentWords, hopened, beginsTag, hblank, hwords]
    rw [hspec, hspec, hsame, hfrom, ← hwithin]
    cases htagged : tagAhead ⟨last, line ++ tail⟩ with
    | true =>
      have hends : wordsWithin (nextLine tail) = wordsFrom (nextLine tail) :=
        wordsWithin_tag (htag.symm.trans htagged)
      rw [wordsWithin_tag htagged, hsame, hends]
      exact ⟨rfl, rfl⟩
    | false =>
      rw [wordsWithin_line hline htail htagged, hwords]
      exact ⟨rfl, rfl⟩
  · have htag : tagAhead ⟨last, line ++ tail⟩ = beginsTag line := by
      rw [tagAhead, hstart, beginsTag_line hblank htail, Bool.true_and]
    have hdrop : (line ++ tail).dropWhile isSpace = line.dropWhile isSpace ++ tail :=
      dropWhile_line hblank
    cases hopened : openedBy line with
    | some first =>
      have hfirst := openedBy_some.mp hopened
      have hmem : ∀ c ∈ first, isTerminator c = false := by
        intro c hc
        refine hline c ((List.dropWhile_suffix isSpace).subset ?_)
        rw [hfirst]
        exact List.mem_append_right _ hc
      have hnone : isTerminator ' ' = false := by decide
      have hopen : (line ++ tail).dropWhile isSpace = opening ++ (first ++ tail) := by
        rw [hdrop, hfirst, List.append_assoc]
      have hopens : wordsFrom ⟨last, line ++ tail⟩ =
          words isSpace first ++ argumentWords true (lines tail.tail) := by
        rw [wordsFrom_opens hstart hopen, wordsWithin_line hmem htail (tagAhead_some hnone _), hwithin]
      have hends := wordsWithin_tag (htag.trans (beginsTag_of_opened hopened))
      rw [hends, hopens]
      simp [argumentWords, hopened]
    | none =>
      have hnone : arguments.firstAt ⟨last, line ++ tail⟩ = none := by
        refine firstAt_none (.inr fun hpre => ?_)
        rw [hdrop] at hpre
        exact openedBy_none hopened (opening_line htail hpre)
      have hfalse : wordsFrom ⟨last, line ++ tail⟩ = argumentWords false (lines tail.tail) :=
        (wordsFrom_line hline hnone).trans hfrom
      cases htagged : beginsTag line with
      | true =>
        rw [wordsWithin_tag (htag.trans htagged), hfalse]
        simp [argumentWords, hopened, htagged]
      | false =>
        rw [wordsWithin_line hline htail (htag.trans htagged), hfalse, hwithin]
        simp [argumentWords, hopened, htagged]

theorem words_lines (hstart : (Place.mk last text).atLineStart = true) :
    wordsFrom ⟨last, text⟩ = argumentWords false (lines text) ∧
      wordsWithin ⟨last, text⟩ = argumentWords true (lines text) := by
  induction hn : text.length using Nat.strongRecOn generalizing text last with
  | ind n ih =>
    subst hn
    cases text with
    | nil => exact ⟨wordsFrom_end, wordsWithin_end⟩
    | cons c text =>
      let ends := fun c => !isTerminator c
      have hsplit : (c :: text).takeWhile ends ++ (c :: text).dropWhile ends = c :: text :=
        List.takeWhile_append_dropWhile
      have hline : ∀ c' ∈ (c :: text).takeWhile ends, isTerminator c' = false := by
        intro c' hc'
        simpa [ends] using List.mem_takeWhile_imp hc'
      have htail : ((c :: text).dropWhile ends).head?.all isTerminator = true := by
        have hfirst := List.head?_dropWhile_not ends (c :: text)
        cases hhead : ((c :: text).dropWhile ends).head? with
        | none => rfl
        | some t => simpa [hhead, ends] using hfirst
      have hlt : ((c :: text).dropWhile ends).tail.length < (c :: text).length := by
        have hle := (List.dropWhile_suffix ends (l := c :: text)).length_le
        simp only [List.length_tail, List.length_cons] at hle ⊢
        omega
      obtain ⟨hfrom, hwithin⟩ := ih _ hlt (nextLine_start htail) rfl
      rw [← hsplit] at hstart ⊢
      rw [argumentWords_line false hline htail, argumentWords_line true hline htail]
      exact words_step hstart hline htail hfrom hwithin

end

theorem argumentsOf_lines (text : List Char) :
    argumentsOf text = argumentWords false (lines text) := by
  rw [argumentsOf_eq]
  exact (words_lines rfl).1

/-- The second pattern finds nothing where the first does not. -/
theorem argumentsOf_untagged {text : List Char} (h : tagged.test text = false) :
    argumentsOf text = [] := by
  have hnil : tagged.matchAll text = [] := by simpa [Pattern.test] using h
  rw [argumentsOf_eq, Pattern.matchesAt_nil (fun place => tagged_none) hnil]
  rfl

/-- The annotation that the patterns find is the one the lines have. -/
theorem storageLocation_eq (text : List Char) : storageLocation text = annotationOf text := by
  unfold storageLocation annotationOf
  rw [← argumentsOf_lines]
  cases htest : tagged.test text with
  | true => rfl
  | false =>
    rw [argumentsOf_untagged htest]
    rfl

end TronUpgrades.Hardhat
