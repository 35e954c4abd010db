import TronUpgrades.Solidity.Source
import TronUpgrades.Validation.ImportGraph

/-!
# Reading imports off a source text

What is left of a text once its comments are gone: runs of words, literals and
single characters. A comment that leaves nothing joins the words on its two
sides into one run.
-/

namespace TronUpgrades.Validation

open Solidity (Element LineEnd Token SourceUnit Directive isIdentifierPart isQuote isBlank
  isHexDigit isLiteralBody LiteralBody literalBody_of isCommentBody importKeyword)

-- ---------------------------------------------------------------------------
-- Comments removed
-- ---------------------------------------------------------------------------

/-- What `stripComments` leaves of an element. -/
def stripped : Element → List Char
  | .lineComment _ .lf | .lineComment _ .crlf => ['\n']
  | .lineComment _ _ => []
  | .blockComment text => text.filter (· = '\n')
  | element => element.text

theorem not_slash_of_part {c : Char} (h : isIdentifierPart c = true) : c ≠ '/' := by
  rintro rfl
  revert h
  decide

theorem not_quote_of_part {c : Char} (h : isIdentifierPart c = true) : isQuote c = false := by
  cases hq : isQuote c with
  | false => rfl
  | true =>
    rw [isQuote, Bool.or_eq_true, beq_iff_eq, beq_iff_eq] at hq
    rcases hq with rfl | rfl
    · revert h
      decide
    · revert h
      decide

theorem isQuote_iff {c : Char} : isQuote c = true ↔ c = '"' ∨ c = apostrophe := by
  rw [isQuote, Bool.or_eq_true, beq_iff_eq, beq_iff_eq]
  rfl

/-- In code, where no comment begins. -/
theorem stripFrom_outside {c : Char} {rest : List Char}
    (hslash : c = '/' → rest.head? ≠ some '/' ∧ rest.head? ≠ some '*') :
    stripFrom .code (c :: rest) =
      c :: stripFrom (if c = '"' ∨ c = apostrophe then .literal c else .code) rest := by
  rw [stripFrom]
  · rintro source rfl rfl
    exact (hslash rfl).1 rfl
  · rintro source rfl rfl
    exact (hslash rfl).2 rfl

/-- In a literal, where no escape begins. -/
theorem stripFrom_inside {c quote : Char} (hc : c ≠ '\\') (rest : List Char) :
    stripFrom (.literal quote) (c :: rest) =
      c :: stripFrom (if c = quote then .code else .literal quote) rest := by
  rw [stripFrom]
  intro _ _ hescape
  exact absurd hescape hc

/-- In a block comment that does not end here. -/
theorem stripFrom_within {c : Char} {rest : List Char}
    (hopen : c = '*' → ∀ source, rest ≠ '/' :: source) :
    stripFrom .blockComment (c :: rest) =
      if c = '\n' then c :: stripFrom .blockComment rest else stripFrom .blockComment rest := by
  rw [stripFrom]
  intro source hc hsource
  exact hopen hc source hsource

/-- A character that begins neither a comment nor a literal. -/
theorem stripFrom_code {c : Char} {rest : List Char} (hquote : isQuote c = false)
    (hslash : c = '/' → rest.head? ≠ some '/' ∧ rest.head? ≠ some '*') :
    stripFrom .code (c :: rest) = c :: stripFrom .code rest := by
  have hc : ¬ (c = '"' ∨ c = apostrophe) := by
    rw [← isQuote_iff, hquote]
    decide
  rw [stripFrom_outside hslash, if_neg hc]

theorem stripFrom_word {chars : List Char} (h : ∀ c ∈ chars, isIdentifierPart c = true)
    (rest : List Char) : stripFrom .code (chars ++ rest) = chars ++ stripFrom .code rest := by
  induction chars with
  | nil => rfl
  | cons c chars ih =>
    obtain ⟨hc, hchars⟩ := List.forall_mem_cons.mp h
    rw [List.cons_append, stripFrom_code (not_quote_of_part hc)
      (fun hslash => absurd hslash (not_slash_of_part hc)), ih hchars]
    rfl

theorem not_quote_of_hex {c quote : Char} (h : isHexDigit c = true) (hquote : isQuote quote = true) :
    c ≠ quote ∧ c ≠ '\\' := by
  constructor
  · rintro rfl
    rcases isQuote_iff.mp hquote with rfl | rfl
    · revert h
      decide
    · revert h
      decide
  · rintro rfl
    revert h
    decide

/-- Inside a literal a character is kept. -/
theorem stripFrom_kept {c quote : Char} (h : c ≠ quote ∧ c ≠ '\\') (rest : List Char) :
    stripFrom (.literal quote) (c :: rest) = c :: stripFrom (.literal quote) rest := by
  rw [stripFrom_inside h.2, if_neg h.1]

theorem stripFrom_escape (c quote : Char) (rest : List Char) :
    stripFrom (.literal quote) ('\\' :: c :: rest) =
      '\\' :: c :: stripFrom (.literal quote) rest := rfl

theorem stripFrom_literal {quote : Char} {raw : List Char} (h : LiteralBody quote raw)
    (hquote : isQuote quote = true) (rest : List Char) :
    stripFrom (.literal quote) (raw ++ quote :: rest) = raw ++ quote :: stripFrom .code rest := by
  have hbackslash : quote ≠ '\\' := by
    rintro rfl
    revert hquote
    decide
  induction h with
  | nil => rw [List.nil_append, stripFrom_inside hbackslash, if_pos rfl, List.nil_append]
  | hex digits _ ih =>
    simp only [List.cons_append]
    rw [stripFrom_escape, stripFrom_kept (not_quote_of_hex digits.1 hquote),
      stripFrom_kept (not_quote_of_hex digits.2 hquote), ih]
  | unicode digits _ ih =>
    simp only [List.cons_append]
    rw [stripFrom_escape, stripFrom_kept (not_quote_of_hex digits.1 hquote),
      stripFrom_kept (not_quote_of_hex digits.2.1 hquote),
      stripFrom_kept (not_quote_of_hex digits.2.2.1 hquote),
      stripFrom_kept (not_quote_of_hex digits.2.2.2 hquote), ih]
  | escape _ _ ih =>
    rw [List.cons_append, List.cons_append, stripFrom_escape, ih]
    rfl
  | plain inside _ ih =>
    rw [List.cons_append, stripFrom_kept inside, ih]
    rfl

theorem stripFrom_line (c : Char) (rest : List Char) : stripFrom .lineComment (c :: rest) =
    if c = '\n' then c :: stripFrom .code rest else stripFrom .lineComment rest := rfl

theorem stripFrom_lineComment {text : List Char} (h : '\n' ∉ text) (rest : List Char) :
    stripFrom .lineComment (text ++ rest) = stripFrom .lineComment rest := by
  induction text with
  | nil => rfl
  | cons c text ih =>
    rw [List.mem_cons, not_or] at h
    rw [List.cons_append, stripFrom_line, if_neg (Ne.symm h.1), ih h.2]

theorem stripFrom_blockComment {text : List Char} (h : isCommentBody text = true)
    (rest : List Char) : stripFrom .blockComment (text ++ '*' :: '/' :: rest) =
      text.filter (· = '\n') ++ stripFrom .code rest := by
  fun_induction isCommentBody text with
  | case1 => cases h
  | case2 c text hopen ih =>
    have hwithin : c = '*' → ∀ source, text ++ '*' :: '/' :: rest ≠ '/' :: source := by
      rintro hc source hsource
      cases text with
      | nil => simp at hsource
      | cons c' text =>
        obtain ⟨rfl, -⟩ := List.cons.inj hsource
        exact hopen text hc rfl
    rw [List.cons_append, stripFrom_within hwithin, ih h]
    by_cases hc : c = '\n' <;> simp [hc]
  | case3 => rfl

/-- A comment runs to the next line feed: a bare carriage return does not end
it, as it does for the language. -/
theorem stripFrom_element {element : Element} {rest : List Char} (h : element.Fits rest)
    (hbreak : ∀ text, element ≠ .lineComment text .cr) :
    stripFrom .code (element.text ++ rest) = stripped element ++ stripFrom .code rest := by
  cases element with
  | word chars => exact stripFrom_word h.2.1 rest
  | literal quote raw =>
    have hopen : stripFrom .code (quote :: (raw ++ quote :: rest)) =
        quote :: stripFrom (.literal quote) (raw ++ quote :: rest) := by
      rw [stripFrom_outside, if_pos (isQuote_iff.mp h.1)]
      rintro rfl
      exact absurd h.1 (by decide)
    simp only [Element.text, stripped, List.cons_append, List.append_assoc, List.nil_append, hopen,
      stripFrom_literal (literalBody_of h.2) h.1]
  | mark c => exact stripFrom_code h.1.2.1 h.2
  | blank c =>
    have hquote : isQuote c = false ∧ c ≠ '/' := by
      simp only [Element.Fits, isBlank, Bool.or_eq_true, beq_iff_eq] at h
      rcases h with (((rfl | rfl) | rfl) | rfl) | rfl <;> decide
    exact stripFrom_code hquote.1 fun hslash => absurd hslash hquote.2
  | lineComment text ending =>
    have hopen : stripFrom .code (Element.text (.lineComment text ending) ++ rest) =
        stripFrom .lineComment (ending.text ++ rest) := by
      simp only [Element.text, List.cons_append, List.append_assoc]
      exact stripFrom_lineComment h.1.1 _
    rw [hopen]
    cases ending with
    | lf => rfl
    | crlf => rfl
    | cr => exact absurd rfl (hbreak text)
    | eof =>
      rw [h.2.2 rfl]
      rfl
  | blockComment text =>
    simp only [Element.text, stripped, List.cons_append, List.append_assoc, List.nil_append]
    exact stripFrom_blockComment h rest

theorem stripComments_source {elements : List Element} (h : Solidity.Fits elements)
    (hbreak : ∀ text, .lineComment text .cr ∉ elements) :
    stripComments (Solidity.source elements) = (elements.map stripped).flatten := by
  induction elements with
  | nil => rfl
  | cons element rest ih =>
    have hhere : ∀ text, element ≠ .lineComment text .cr := by
      rintro text rfl
      exact hbreak text List.mem_cons_self
    have hrest := ih h.2 fun text hmem => hbreak text (List.mem_cons_of_mem _ hmem)
    rw [List.map_cons, List.flatten_cons, ← hrest]
    exact stripFrom_element h.1 hhere

-- ---------------------------------------------------------------------------
-- The parts that are left
-- ---------------------------------------------------------------------------

/-- The words of a run have nothing between them. -/
inductive Part
  | run (words : List (List Char))
  | literal (quote : Char) (raw : List Char)
  | single (c : Char)

def Part.text : Part → List Char
  | .run words => words.flatten
  | .literal quote raw => quote :: (raw ++ [quote])
  | .single c => [c]

def Part.tokens : Part → List Token
  | .run words => words.map .word
  | .literal _ raw => [.literal raw]
  | .single c => if isBlank c then [] else [.mark c]

def partsText (parts : List Part) : List Char := (parts.map Part.text).flatten

def partsTokens (parts : List Part) : List Token := (parts.map Part.tokens).flatten

/-- A word in front of what is left. -/
def joinWord (word : List Char) : List Part → List Part
  | .run words :: rest => .run (word :: words) :: rest
  | parts => .run [word] :: parts

def partsOf : List Element → List Part
  | [] => []
  | .word chars :: rest => joinWord chars (partsOf rest)
  | .literal quote raw :: rest => .literal quote raw :: partsOf rest
  | .mark c :: rest => .single c :: partsOf rest
  | .blank c :: rest => .single c :: partsOf rest
  | comment :: rest => (stripped comment).map .single ++ partsOf rest

/-- A part on its own, before this one. -/
def Part.Stands (next : Option Part) : Part → Prop
  | .run words => (∀ word ∈ words, word ≠ [] ∧ ∀ c ∈ word, isIdentifierPart c = true) ∧
      ∀ words', next ≠ some (.run words')
  | .literal quote raw => isQuote quote = true ∧ isLiteralBody quote raw = true
  | .single c => isIdentifierPart c = false ∧ isQuote c = false

def Stand : List Part → Prop
  | [] => True
  | part :: rest => part.Stands rest.head? ∧ Stand rest

theorem partsText_joinWord (word : List Char) (parts : List Part) :
    partsText (joinWord word parts) = word ++ partsText parts := by
  unfold joinWord
  split <;> simp [partsText, Part.text]

theorem partsTokens_joinWord (word : List Char) (parts : List Part) :
    partsTokens (joinWord word parts) = .word word :: partsTokens parts := by
  unfold joinWord
  split <;> simp [partsTokens, Part.tokens]

theorem stand_joinWord {word : List Char} {parts : List Part}
    (hword : word ≠ [] ∧ ∀ c ∈ word, isIdentifierPart c = true) (h : Stand parts) :
    Stand (joinWord word parts) := by
  unfold joinWord
  split
  · exact ⟨⟨List.forall_mem_cons.mpr ⟨hword, h.1.1⟩, h.1.2⟩, h.2⟩
  · rename_i hrun
    refine ⟨⟨by simpa using hword, fun words' hnext => ?_⟩, h⟩
    cases parts with
    | nil => cases hnext
    | cons part rest =>
      cases hnext
      exact hrun words' rest rfl

/-- A comment leaves line feeds, at most. -/
theorem stripped_comment {element : Element} (h : element.token? = none)
    (hblank : ∀ c, element ≠ .blank c) : ∀ c ∈ stripped element, c = '\n' := by
  cases element with
  | word | literal | mark => cases h
  | blank c => exact absurd rfl (hblank c)
  | lineComment text ending => cases ending <;> simp [stripped]
  | blockComment text => simp [stripped]

theorem partsText_singles (chars : List Char) (parts : List Part) :
    partsText (chars.map .single ++ parts) = chars ++ partsText parts := by
  induction chars with
  | nil => rfl
  | cons c chars ih => exact congrArg (c :: ·) ih

theorem partsTokens_singles {chars : List Char} (h : ∀ c ∈ chars, c = '\n') (parts : List Part) :
    partsTokens (chars.map .single ++ parts) = partsTokens parts := by
  induction chars with
  | nil => rfl
  | cons c chars ih =>
    obtain ⟨rfl, hchars⟩ := List.forall_mem_cons.mp h
    exact ih hchars

theorem stand_singles {chars : List Char} (h : ∀ c ∈ chars, c = '\n') {parts : List Part}
    (hparts : Stand parts) : Stand (chars.map .single ++ parts) := by
  induction chars with
  | nil => exact hparts
  | cons c chars ih =>
    obtain ⟨rfl, hchars⟩ := List.forall_mem_cons.mp h
    exact ⟨⟨by decide, by decide⟩, ih hchars⟩

theorem partsText_partsOf (elements : List Element) :
    partsText (partsOf elements) = (elements.map stripped).flatten := by
  induction elements with
  | nil => rfl
  | cons element rest ih =>
    rw [List.map_cons, List.flatten_cons, ← ih]
    cases element with
    | word chars => exact partsText_joinWord chars _
    | literal | mark | blank => rfl
    | lineComment | blockComment => exact partsText_singles _ _

theorem partsTokens_partsOf {elements : List Element} (h : Solidity.Fits elements) :
    partsTokens (partsOf elements) = Solidity.tokens elements := by
  induction elements with
  | nil => rfl
  | cons element rest ih =>
    have ih := ih h.2
    cases element with
    | word chars =>
      rw [partsOf, partsTokens_joinWord, ih]
      rfl
    | literal quote raw => exact congrArg _ ih
    | mark c =>
      have hblank : isBlank c = false := h.1.1.2.2
      have hstep : partsTokens (partsOf (.mark c :: rest)) = .mark c :: partsTokens (partsOf rest) := by
        simp [partsOf, partsTokens, Part.tokens, hblank]
      rw [hstep, ih]
      rfl
    | blank c =>
      have hblank : isBlank c = true := h.1
      have hstep : partsTokens (partsOf (.blank c :: rest)) = partsTokens (partsOf rest) := by
        simp [partsOf, partsTokens, Part.tokens, hblank]
      rw [hstep, ih]
      rfl
    | lineComment | blockComment =>
      exact (partsTokens_singles (stripped_comment rfl (by simp)) _).trans ih

theorem stand_partsOf {elements : List Element} (h : Solidity.Fits elements) :
    Stand (partsOf elements) := by
  induction elements with
  | nil => trivial
  | cons element rest ih =>
    have ih := ih h.2
    cases element with
    | word chars => exact stand_joinWord ⟨h.1.1, h.1.2.1⟩ ih
    | literal quote raw => exact ⟨h.1, ih⟩
    | mark c => exact ⟨⟨h.1.1.1, h.1.1.2.1⟩, ih⟩
    | blank c =>
      have hblank : isBlank c = true := h.1
      refine ⟨?_, ih⟩
      simp only [isBlank, Bool.or_eq_true, beq_iff_eq] at hblank
      rcases hblank with (((rfl | rfl) | rfl) | rfl) | rfl <;> exact ⟨by decide, by decide⟩
    | lineComment | blockComment => exact stand_singles (stripped_comment rfl (by simp)) ih

end TronUpgrades.Validation
