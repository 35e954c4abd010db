import Mathlib.Data.List.Forall2
import Mathlib.Data.List.TakeWhile
import TronUpgrades.Validation.ImportText

/-!
# Scanning for imports

The pattern looks for the word `import` in the stripped text and reads on to
the next semicolon. Where the word stands only as the keyword of a directive,
it finds the directives, each with its first literal.
-/

namespace TronUpgrades.Validation

open Solidity (Element LineEnd Token SourceUnit Directive isIdentifierPart isQuote isBlank
  isLiteralBody LiteralBody literalBody_of importKeyword)

/-- `\bimport\b` stands somewhere in the text. -/
def ContainsWord (text : List Char) : Prop :=
  ∃ before after, text = before ++ importKeyword ++ after ∧
    before.getLast?.all (!isWordCharacter ·) = true ∧ after.head?.all (!isWordCharacter ·) = true

-- ---------------------------------------------------------------------------
-- Seeking
-- ---------------------------------------------------------------------------

theorem word_of_part {c : Char} (h : isIdentifierPart c = false) : isWordCharacter c = false := by
  cases hw : isWordCharacter c with
  | false => rfl
  | true =>
    rw [isIdentifierPart, Bool.or_eq_false_iff] at h
    rw [isWordCharacter, Text.isDigit] at hw
    rw [hw] at h
    exact absurd h.1 (by decide)

theorem keyword_parts : ∀ c ∈ importKeyword, isIdentifierPart c = true :=
  Text.forall_mem_of_all (by decide)

theorem startsImport_iff (source : List Char) : startsImport source = true ↔
    ∃ after, source = importKeyword ++ after ∧ after.head?.all (!isWordCharacter ·) = true := by
  have hany : ∀ o : Option Char, (!(o.any isWordCharacter)) = o.all (!isWordCharacter ·) := by
    intro o
    cases o <;> rfl
  rw [startsImport, Bool.and_eq_true, hany]
  change importKeyword.isPrefixOf source = true ∧ _ ↔ _
  rw [List.isPrefixOf_iff_prefix]
  constructor
  · rintro ⟨⟨after, rfl⟩, hhead⟩
    exact ⟨after, rfl, hhead⟩
  · rintro ⟨after, rfl, hhead⟩
    exact ⟨⟨after, rfl⟩, hhead⟩

/-- The scan passes what begins no import. -/
theorem seek_text {text rest : List Char} {inWord : Bool}
    (h : ∀ before after, text = before ++ after → after ≠ [] →
      (before.getLast?.map isWordCharacter).getD inWord = false →
        startsImport (after ++ rest) = false) :
    importStatements (.seeking inWord) (text ++ rest) =
      importStatements (.seeking ((text.getLast?.map isWordCharacter).getD inWord)) rest := by
  induction text generalizing inWord with
  | nil => rfl
  | cons c text ih =>
    have hstep : importStatements (.seeking inWord) (c :: (text ++ rest)) =
        importStatements (.seeking (isWordCharacter c)) (text ++ rest) := by
      rw [importStatements, if_neg]
      cases inWord with
      | true => simp
      | false =>
        have := h [] (c :: text) rfl (List.cons_ne_nil _ _) rfl
        rw [List.cons_append] at this
        simp [this]
    rw [List.cons_append, hstep, ih]
    · congr 2
      cases text with
      | nil => rfl
      | cons c' text => simp [List.getLast?_cons]
    · intro before after htext hafter hbefore
      refine h (c :: before) after (by rw [htext, List.cons_append]) hafter ?_
      rw [← hbefore]
      cases before with
      | nil => rfl
      | cons c' before => simp [List.getLast?_cons]

/-- After a character that is no word's, it does not matter whether one went
before it. -/
theorem seeking_any {rest : List Char} (h : ∀ c, rest.head? = some c → isIdentifierPart c = false)
    (inWord : Bool) :
    importStatements (.seeking inWord) rest = importStatements (.seeking false) rest := by
  cases rest with
  | nil => rfl
  | cons c rest =>
    have hstarts : startsImport (c :: rest) = false := by
      cases hs : startsImport (c :: rest) with
      | false => rfl
      | true =>
        obtain ⟨after, hafter, -⟩ := (startsImport_iff _).mp hs
        obtain ⟨rfl, -⟩ := List.cons.inj hafter
        exact absurd (h 'i' rfl) (by decide)
    simp [importStatements, hstarts]

/-- A text that does not contain the word is passed, where the word cannot
begin in it and go on behind it. -/
theorem seek_past {text rest : List Char} (h : ¬ ContainsWord text)
    (hends : (∃ init c, text = init ++ [c] ∧ isIdentifierPart c = false) ∨
      ∀ c, rest.head? = some c → isIdentifierPart c = false) :
    importStatements (.seeking false) (text ++ rest) =
      importStatements (.seeking false) rest := by
  have hpassed : ∀ before after, text = before ++ after → after ≠ [] →
      (before.getLast?.map isWordCharacter).getD false = false →
        startsImport (after ++ rest) = false := by
    intro before after htext hafter hbefore
    cases hs : startsImport (after ++ rest) with
    | false => rfl
    | true =>
      exfalso
      obtain ⟨tail, htail, hhead⟩ := (startsImport_iff _).mp hs
      have hinside : ∃ more, after = importKeyword ++ more ∧ tail = more ++ rest := by
        rcases List.append_eq_append_iff.mp htail with ⟨more, hkeyword, hrest⟩ | ⟨more, h, h'⟩
        · -- What of the word is left stands behind the text.
          cases more with
          | nil => exact ⟨[], by simpa using hkeyword.symm, by simpa using hrest.symm⟩
          | cons c more =>
            exfalso
            have hparts : ∀ c' ∈ after, isIdentifierPart c' = true := fun c' hc' =>
              keyword_parts c' (hkeyword ▸ List.mem_append_left _ hc')
            have hc : isIdentifierPart c = true := keyword_parts c (by simp [hkeyword])
            rcases hends with ⟨init, last, hlast, hpart⟩ | hnext
            · have hmem : last ∈ after := by
                have := congrArg List.getLast? (htext.symm.trans hlast)
                rw [List.getLast?_append, List.getLast?_concat] at this
                obtain ⟨l, hl⟩ : ∃ l, after.getLast? = some l :=
                  Option.isSome_iff_exists.mp (by simp [hafter])
                rw [hl, Option.some_or] at this
                cases this
                exact List.mem_of_getLast? hl
              rw [hparts last hmem] at hpart
              cases hpart
            · rw [hnext c (by simp [hrest])] at hc
              cases hc
        · exact ⟨more, h, h'⟩
      obtain ⟨more, rfl, rfl⟩ := hinside
      refine h ⟨before, more, by rw [htext, List.append_assoc], ?_, ?_⟩
      · cases hlast : before.getLast? with
        | none => rfl
        | some c => simpa [hlast] using hbefore
      · cases more with
        | nil => rfl
        | cons c more => simpa using hhead
  rw [seek_text hpassed]
  rcases hends with ⟨init, c, rfl, hc⟩ | hnext
  · simp [word_of_part hc]
  · exact seeking_any hnext _

/-- A directive is read from behind its keyword to its semicolon. -/
theorem scan_directive {body rest : List Char} (hsemicolon : ';' ∉ body)
    (hhead : ∀ c, body.head? = some c → isIdentifierPart c = false) :
    importStatements (.seeking false) (importKeyword ++ (body ++ ';' :: rest)) =
      body :: importStatements (.seeking false) rest := by
  have hbody : ∀ reversed, importStatements (.body reversed) (body ++ ';' :: rest) =
      (reversed.reverse ++ body) :: importStatements (.seeking false) rest := by
    clear hhead
    induction body with
    | nil =>
      intro reversed
      simp [importStatements]
    | cons c body ih =>
      intro reversed
      rw [List.mem_cons, not_or] at hsemicolon
      rw [List.cons_append, importStatements, if_neg (Ne.symm hsemicolon.1), ih hsemicolon.2]
      simp
  have hstarts : startsImport (importKeyword ++ (body ++ ';' :: rest)) = true := by
    refine (startsImport_iff _).mpr ⟨_, rfl, ?_⟩
    cases body with
    | nil => rfl
    | cons c body => simpa using word_of_part (hhead c rfl)
  have hbegin : importStatements (.seeking false) (importKeyword ++ (body ++ ';' :: rest)) =
      importStatements (.keyword 5) (importKeyword.tail ++ (body ++ ';' :: rest)) := by
    rw [importKeyword, List.cons_append, importStatements, if_pos]
    · rfl
    · rw [Bool.and_eq_true, Bool.and_eq_true]
      exact ⟨⟨rfl, hstarts⟩, by simp⟩
  rw [hbegin]
  exact hbody []

-- ---------------------------------------------------------------------------
-- Parts
-- ---------------------------------------------------------------------------

theorem part_of_quote {c : Char} (h : isQuote c = true) : isIdentifierPart c = false := by
  cases hpart : isIdentifierPart c with
  | false => rfl
  | true =>
    rw [not_quote_of_part hpart] at h
    cases h

theorem Stand.part {parts : List Part} (h : Stand parts) :
    ∀ part ∈ parts, part.Stands none := by
  induction parts with
  | nil => exact fun _ hmem => absurd hmem List.not_mem_nil
  | cons part rest ih =>
    refine List.forall_mem_cons.mpr ⟨?_, ih h.2⟩
    have hhere := h.1
    cases part with
    | run words => exact ⟨hhere.1, by simp⟩
    | literal | single => exact hhere

theorem Stand.right {before after : List Part} (h : Stand (before ++ after)) : Stand after := by
  induction before with
  | nil => exact h
  | cons part before ih => exact ih h.2

/-- Behind a run no identifier goes on. -/
theorem Stand.head {words : List (List Char)} {rest : List Part} (h : Stand (.run words :: rest)) :
    ∀ c, (partsText rest).head? = some c → isIdentifierPart c = false := by
  intro c hc
  cases rest with
  | nil => cases hc
  | cons part rest =>
    have hpart := h.2.1
    cases part with
    | run words' => exact absurd rfl (h.1.2 words')
    | literal quote raw =>
      cases hc
      exact part_of_quote hpart.1
    | single c' =>
      cases hc
      exact hpart.1

theorem containsWord_quoted {quote : Char} {raw : List Char} (hquote : isIdentifierPart quote = false)
    (h : ContainsWord (quote :: (raw ++ [quote]))) : ContainsWord raw := by
  obtain ⟨before, after, htext, hbefore, hafter⟩ := h
  have hne : ∀ c ∈ importKeyword, c ≠ quote := by
    rintro c hc rfl
    rw [keyword_parts c hc] at hquote
    cases hquote
  cases before with
  | nil =>
    exact absurd (List.cons.inj htext).1.symm (hne 'i' (by decide))
  | cons c before =>
    obtain ⟨rfl, hraw⟩ := List.cons.inj htext
    rcases List.eq_nil_or_concat after with rfl | ⟨after, last, rfl⟩
    · have hraw : raw ++ [quote] = before ++ importKeyword := by simpa using hraw
      have hlast := congrArg List.getLast? hraw
      rw [List.getLast?_append, List.getLast?_append] at hlast
      exact absurd (Option.some.inj hlast).symm (hne 't' (by decide))
    · have hraw : raw ++ [quote] = (before ++ importKeyword ++ after) ++ [last] := by
        simpa using hraw
      refine ⟨before, after, (List.append_inj' hraw rfl).1, ?_, ?_⟩
      · cases before with
        | nil => rfl
        | cons => simpa [List.getLast?_cons] using hbefore
      · cases after with
        | nil => rfl
        | cons => simpa using hafter

theorem not_containsWord_single (c : Char) : ¬ ContainsWord [c] := by
  rintro ⟨before, after, htext, -⟩
  have hlength := congrArg List.length htext
  simp [importKeyword] at hlength
  omega

/-- Wherever the word is seen in a run, the run is the keyword. -/
def OwnKeyword (words : List (List Char)) : Prop :=
  ContainsWord words.flatten ∨ importKeyword ∈ words → words = [importKeyword]

/-- A part other than the keyword is passed. -/
theorem scan_part {part : Part} {rest : List Part} (h : Stand (part :: rest))
    (hrun : ∀ words, part = .run words → ¬ ContainsWord words.flatten)
    (hliteral : ∀ quote raw, part = .literal quote raw → ¬ ContainsWord raw) :
    importStatements (.seeking false) (partsText (part :: rest)) =
      importStatements (.seeking false) (partsText rest) := by
  cases part with
  | run words => exact seek_past (hrun words rfl) (.inr h.head)
  | literal quote raw =>
    have hquote := part_of_quote h.1.1
    exact seek_past (fun hword => hliteral quote raw rfl (containsWord_quoted hquote hword))
      (.inl ⟨quote :: raw, quote, rfl, hquote⟩)
  | single c => exact seek_past (not_containsWord_single c) (.inl ⟨[], c, rfl, h.1.1⟩)

/-- A mark among the tokens stands where it is a part of its own. -/
theorem split_parts {parts : List Part} {first rest : List Token} {c : Char}
    (h : partsTokens parts = first ++ .mark c :: rest) : ∃ before after,
      parts = before ++ .single c :: after ∧ partsTokens before = first ∧
        partsTokens after = rest := by
  induction parts generalizing first with
  | nil => simp [partsTokens] at h
  | cons part parts ih =>
    have hcons : part.tokens ++ partsTokens parts = first ++ .mark c :: rest := h
    rcases List.append_eq_append_iff.mp hcons with ⟨more, rfl, hmore⟩ | ⟨more, hpart, hmore⟩
    · obtain ⟨before, after, rfl, rfl, rfl⟩ := ih hmore
      exact ⟨part :: before, after, rfl, rfl, rfl⟩
    · cases more with
      | nil =>
        -- The part has just the tokens before the mark.
        obtain ⟨before, after, rfl, hbefore, rfl⟩ := @ih [] (by simpa using hmore.symm)
        refine ⟨part :: before, after, rfl, ?_, rfl⟩
        simp only [List.append_nil] at hpart
        rw [← hpart]
        exact (congrArg (part.tokens ++ ·) hbefore).trans (List.append_nil _)
      | cons token more =>
        obtain ⟨rfl, rfl⟩ := List.cons.inj hmore
        have hmem : .mark c ∈ part.tokens := by simp [hpart]
        cases part with
        | run words => simp [Part.tokens] at hmem
        | literal quote raw => simp [Part.tokens] at hmem
        | single c' =>
          simp only [Part.tokens] at hmem hpart
          split at hpart
          · simp at hpart
          · rename_i hblank
            rw [if_neg hblank, List.mem_singleton] at hmem
            cases hmem
            have hlengths := congrArg List.length hpart
            simp only [List.length_append, List.length_cons, List.length_nil] at hlengths
            have hfirst : first = [] := List.length_eq_zero_iff.mp (by omega)
            have hmore : more = [] := List.length_eq_zero_iff.mp (by omega)
            subst hfirst hmore
            exact ⟨[], parts, rfl, rfl, rfl⟩

theorem firstStringLiteral_past {text : List Char} (h : ∀ c ∈ text, isQuote c = false)
    (rest : List Char) : firstStringLiteral (text ++ rest) = firstStringLiteral rest := by
  induction text with
  | nil => rfl
  | cons c text ih =>
    obtain ⟨hc, htext⟩ := List.forall_mem_cons.mp h
    rw [List.cons_append, firstStringLiteral, if_neg, ih htext]
    rw [← isQuote_iff, hc]
    simp

/-- What a pattern takes of a literal: up to its quote, or to the first that
was escaped. -/
def Taken (raw found : List Char) : Prop :=
  ∃ quote, (isQuote quote = true ∧ isLiteralBody quote raw = true) ∧
    found = raw.takeWhile (· ≠ quote)

theorem takeWhile_quote (quote : Char) (raw rest : List Char) :
    (raw ++ quote :: rest).takeWhile (· ≠ quote) = raw.takeWhile (· ≠ quote) := by
  induction raw with
  | nil => simp
  | cons c raw ih =>
    rw [List.cons_append, List.takeWhile_cons, List.takeWhile_cons, ih]

/-- The literal that has no other before it is found. -/
theorem first_literal {parts : List Part} {raw : List Char}
    (hparts : ∀ part ∈ parts, part.Stands none)
    (honly : ∀ raw', .literal raw' ∈ partsTokens parts → raw' = raw)
    (hmem : .literal raw ∈ partsTokens parts) :
    ∃ found, firstStringLiteral (partsText parts) = some found ∧ Taken raw found := by
  induction parts with
  | nil => simp [partsTokens] at hmem
  | cons part parts ih =>
    obtain ⟨hpart, hparts⟩ := List.forall_mem_cons.mp hparts
    have hcons : partsTokens (part :: parts) = part.tokens ++ partsTokens parts := rfl
    have htext : partsText (part :: parts) = part.text ++ partsText parts := rfl
    rw [hcons] at honly hmem
    have hrest : (∀ raw', .literal raw' ∉ part.tokens) → (∀ c ∈ part.text, isQuote c = false) →
        ∃ found, firstStringLiteral (part.text ++ partsText parts) = some found ∧
          Taken raw found := by
      intro hnone hquotes
      rw [firstStringLiteral_past hquotes]
      exact ih hparts (fun raw' h => honly raw' (List.mem_append_right _ h))
        ((List.mem_append.mp hmem).resolve_left (hnone raw))
    rw [htext]
    cases part with
    | run words =>
      refine hrest (by simp [Part.tokens]) fun c hc => ?_
      obtain ⟨word, hword, hc⟩ := List.mem_flatten.mp hc
      exact not_quote_of_part ((hpart.1 word hword).2 c hc)
    | single c =>
      refine hrest (fun raw' => ?_) (by simpa [Part.text] using hpart.2)
      simp only [Part.tokens]
      split <;> simp
    | literal quote raw' =>
      cases honly raw' (by simp [Part.tokens])
      have hopen : (quote = '"' ∨ quote = apostrophe) ∧
          quote ∈ raw ++ (quote :: partsText parts) :=
        ⟨isQuote_iff.mp hpart.1, by simp⟩
      refine ⟨_, ?_, quote, hpart, rfl⟩
      simp only [Part.text, List.cons_append, List.append_assoc, List.nil_append]
      rw [firstStringLiteral, if_pos hopen, takeWhile_quote]

-- ---------------------------------------------------------------------------
-- Whole texts
-- ---------------------------------------------------------------------------

/-- What a text may not do for its imports to be read. -/
structure Legible (parts : List Part) (raws : List (List Char)) : Prop where
  keywords : Solidity.KeywordsBegin (partsTokens parts) raws
  runs : ∀ words, .run words ∈ parts → OwnKeyword words
  literals : ∀ quote raw, .literal quote raw ∈ parts → ¬ ContainsWord raw
  paths : ∀ raw ∈ raws, ';' ∉ raw

theorem count_words (words : List (List Char)) :
    (Part.run words).tokens.count (.word importKeyword) = words.count importKeyword := by
  induction words with
  | nil => rfl
  | cons word words ih =>
    have hcons : (Part.run (word :: words)).tokens = .word word :: (Part.run words).tokens := rfl
    rw [hcons, List.count_cons, List.count_cons, ih]
    simp

/-- What is no keyword's run has no keyword. -/
theorem keyword_not_mem {part : Part} (hrun : ∀ words, part = .run words → importKeyword ∉ words) :
    .word importKeyword ∉ part.tokens := by
  cases part with
  | run words => simpa [Part.tokens] using hrun words rfl
  | literal quote raw => simp [Part.tokens]
  | single c =>
    simp only [Part.tokens]
    split <;> simp

theorem not_semicolon {part : Part} (h : part.Stands none) (hmark : .mark ';' ∉ part.tokens)
    (hliteral : ∀ raw, .literal raw ∈ part.tokens → ';' ∉ raw) : ';' ∉ part.text := by
  intro hmem
  cases part with
  | run words =>
    obtain ⟨word, hword, hmem⟩ := List.mem_flatten.mp hmem
    exact absurd ((h.1 word hword).2 ';' hmem) (by decide)
  | literal quote raw =>
    simp only [Part.text, List.mem_cons, List.mem_append, List.not_mem_nil, or_false] at hmem
    rcases hmem with rfl | hmem | rfl
    · exact absurd h.1 (by decide)
    · exact hliteral raw (by simp [Part.tokens]) hmem
    · exact absurd h.1 (by decide)
  | single c =>
    cases List.mem_singleton.mp hmem
    exact hmark (by decide)

/-- By induction on the parts: each is passed, or begins a directive. -/
theorem reads_parts {parts : List Part} {depth : Nat} {raws : List (List Char)}
    (hstand : Stand parts) (hunit : SourceUnit depth (partsTokens parts) raws)
    (h : Legible parts raws) :
    List.Forall₂ Taken raws
      ((importStatements (.seeking false) (partsText parts)).filterMap firstStringLiteral) := by
  generalize hlength : parts.length = length
  induction length using Nat.strongRecOn generalizing parts depth raws with
  | _ length ih =>
    cases parts with
    | nil =>
      cases hunit
      exact .nil
    | cons part rest =>
      have hcons : partsTokens (part :: rest) = part.tokens ++ partsTokens rest := rfl
      by_cases hkeyword : part = .run [importKeyword]
      · subst hkeyword
        have hunit : SourceUnit depth (.word importKeyword :: partsTokens rest) raws := hunit
        have hcount := h.keywords
        rw [Solidity.KeywordsBegin, hcons, List.count_append, count_words] at hcount
        generalize hline : .word importKeyword :: partsTokens rest = line at hunit
        cases hunit with
        | done => cases hline
        | opening => cases hline
        | closing => cases hline
        | other _ _ hrest =>
          -- A keyword inside braces is one too many.
          obtain ⟨-, rfl⟩ := List.cons.inj hline
          have := hrest.le_count
          simp at hcount
          omega
        | @directive directive tokens raw raws hdirective hrest =>
          obtain ⟨before, after, rfl, rfl, rfl⟩ := split_parts (List.cons.inj hline).2
          have hpath := h.paths raw List.mem_cons_self
          have hparts := (Stand.part hstand.2)
          have hsemicolon : ';' ∉ partsText before := by
            intro hmem
            obtain ⟨text, htext, hmem⟩ := List.mem_flatten.mp hmem
            obtain ⟨part, hpart, rfl⟩ := List.mem_map.mp htext
            have htoken : ∀ token ∈ part.tokens, token ∈ partsTokens before := fun token h =>
              List.mem_flatten.mpr ⟨_, List.mem_map_of_mem hpart, h⟩
            refine not_semicolon (hparts part (List.mem_append_left _ hpart)) ?_ ?_ hmem
            · exact fun hsemi => (hdirective.token _ (htoken _ hsemi)).2.1 rfl
            · intro raw' hraw'
              rw [(hdirective.token _ (htoken _ hraw')).2.2 raw' rfl]
              exact hpath
          have htext : partsText (.run [importKeyword] :: (before ++ .single ';' :: after)) =
              importKeyword ++ (partsText before ++ ';' :: partsText after) := by
            simp [partsText, Part.text]
          have hhead : ∀ c, (partsText before).head? = some c → isIdentifierPart c = false := by
            intro c hc
            refine hstand.head c ?_
            have hsplit : partsText (before ++ .single ';' :: after) =
                partsText before ++ ';' :: partsText after := by
              simp [partsText, Part.text]
            rw [hsplit, List.head?_append, hc, Option.some_or]
          obtain ⟨found, hfound, htaken⟩ := first_literal
            (fun part hpart => hparts part (List.mem_append_left _ hpart))
            (fun raw' hraw' => (hdirective.token _ hraw').2.2 raw' rfl) hdirective.literal_mem
          rw [htext, scan_directive hsemicolon hhead, List.filterMap_cons, hfound]
          refine .cons htaken (ih after.length ?_ hstand.2.right.2 hrest ?_ rfl)
          · simp only [List.length_cons, List.length_append] at hlength
            omega
          · refine ⟨?_, fun words hwords => h.runs words ?_, fun quote raw hraw =>
              h.literals quote raw ?_, fun raw hraw => h.paths raw (List.mem_cons_of_mem _ hraw)⟩
            · have hsplit : partsTokens (before ++ .single ';' :: after) =
                  partsTokens before ++ .mark ';' :: partsTokens after := by
                simp [partsTokens, Part.tokens, isBlank]
              have hmark : Token.mark ';' ≠ .word importKeyword := by simp
              rw [hsplit, List.count_append, hdirective.count, List.count_cons_of_ne hmark,
                List.count_singleton_self, List.length_cons] at hcount
              unfold Solidity.KeywordsBegin
              omega
            · simp [hwords]
            · simp [hraw]
      · have hnot : ∀ words, part = .run words →
            ¬ (ContainsWord words.flatten ∨ importKeyword ∈ words) := by
          rintro words rfl hword
          exact hkeyword (congrArg _ (h.runs words List.mem_cons_self hword))
        have hnone : .word importKeyword ∉ part.tokens :=
          keyword_not_mem fun words hwords hmem => hnot words hwords (.inr hmem)
        obtain ⟨depth', hrest⟩ := SourceUnit.skip hunit hnone
        rw [scan_part hstand (fun words hwords hword => hnot words hwords (.inl hword))
          (fun quote raw hraw => h.literals quote raw (hraw ▸ List.mem_cons_self))]
        refine ih rest.length ?_ hstand.2 hrest ?_ rfl
        · rw [← hlength]
          exact Nat.lt_succ_self _
        · have hcount := h.keywords
          rw [Solidity.KeywordsBegin, hcons, List.count_append,
            List.count_eq_zero.mpr hnone, Nat.zero_add] at hcount
          exact ⟨hcount, fun words hwords => h.runs words (List.mem_cons_of_mem _ hwords),
            fun quote raw hraw => h.literals quote raw (List.mem_cons_of_mem _ hraw), h.paths⟩

theorem literals_partsOf {elements : List Element} {quote : Char} {raw : List Char}
    (h : .literal quote raw ∈ partsOf elements) : .literal quote raw ∈ elements := by
  induction elements with
  | nil => exact absurd h List.not_mem_nil
  | cons element rest ih =>
    cases element with
    | word chars =>
      have hrest : .literal quote raw ∈ partsOf rest := by
        simp only [partsOf, joinWord] at h
        split at h
        · rename_i hparts
          rw [hparts]
          exact List.mem_cons_of_mem _ ((List.mem_cons.mp h).resolve_left (by simp))
        · exact (List.mem_cons.mp h).resolve_left (by simp)
      exact List.mem_cons_of_mem _ (ih hrest)
    | literal quote' raw' =>
      rcases List.mem_cons.mp h with h | h
      · cases h
        exact List.mem_cons_self
      · exact List.mem_cons_of_mem _ (ih h)
    | mark c | blank c =>
      exact List.mem_cons_of_mem _ (ih ((List.mem_cons.mp h).resolve_left (by simp)))
    | lineComment text ending | blockComment text =>
      refine List.mem_cons_of_mem _ (ih ((List.mem_append.mp h).resolve_left ?_))
      simp

theorem quote_not_mem {quote : Char} {raw : List Char} (h : LiteralBody quote raw)
    (hplain : '\\' ∉ raw) : quote ∉ raw := by
  induction h with
  | nil => exact List.not_mem_nil
  | hex | unicode | escape => exact absurd List.mem_cons_self hplain
  | plain inside _ ih =>
    rw [List.mem_cons, not_or] at hplain ⊢
    exact ⟨Ne.symm inside.1, ih hplain.2⟩

/-- A pattern takes a literal for what the language reads where it has no
escapes, and only there. -/
theorem Taken.plain_iff {raw found : List Char} (h : Taken raw found) :
    found = Solidity.unescape raw ↔ '\\' ∉ raw := by
  obtain ⟨quote, ⟨hquote, hliteral⟩, rfl⟩ := h
  have hbody := literalBody_of hliteral
  constructor
  · intro heq hmem
    by_cases hclosed : quote ∈ raw
    · -- A quote that was escaped is in what is read, and not in what is taken.
      have hread : quote ∈ Solidity.unescape raw := by
        refine Solidity.mem_unescape hbody ?_ hclosed
        rcases isQuote_iff.mp hquote with rfl | rfl <;> decide
      rw [← heq] at hread
      simpa using List.mem_takeWhile_imp hread
    · have hall : raw.takeWhile (· ≠ quote) = raw := by
        refine List.takeWhile_eq_self_iff.mpr fun c hc => ?_
        have : c ≠ quote := by
          rintro rfl
          exact hclosed hc
        simpa using this
      rw [hall] at heq
      have := (Solidity.length_unescape hbody).2 hmem
      rw [← heq] at this
      exact absurd this (Nat.lt_irrefl _)
  · intro hplain
    rw [Solidity.unescape_plain hplain]
    refine List.takeWhile_eq_self_iff.mpr fun c hc => ?_
    have : c ≠ quote := by
      rintro rfl
      exact quote_not_mem hbody hplain hc
    simpa using this

theorem Taken.ne_nil {raw found : List Char} (h : Taken raw found)
    (hne : Solidity.unescape raw ≠ []) : found ≠ [] := by
  obtain ⟨quote, ⟨hquote, hbody⟩, rfl⟩ := h
  cases raw with
  | nil => exact absurd rfl hne
  | cons c raw =>
    have hc : c ≠ quote := by
      rintro rfl
      have hbackslash : c ≠ '\\' := by
        rintro rfl
        revert hquote
        decide
      cases literalBody_of hbody with
      | hex | unicode | escape => exact hbackslash rfl
      | plain inside => exact inside.1 rfl
    simp [hc]

theorem importStatements_semicolon {state : Scanning} {source : List Char}
    (hstate : ∀ reversed, state = .body reversed → ';' ∉ reversed) (hkeyword : state ≠ .keyword 0) :
    ∀ body ∈ importStatements state source, ';' ∉ body := by
  induction source generalizing state with
  | nil =>
    intro body hbody
    rw [importStatements] at hbody
    exact absurd hbody List.not_mem_nil
  | cons c source ih =>
    cases state with
    | seeking inWord =>
      rw [importStatements]
      split
      · exact ih (by simp) (by simp)
      · exact ih (by simp) (by simp)
    | keyword left =>
      cases left with
      | zero => exact absurd rfl hkeyword
      | succ left =>
        rw [importStatements]
        split
        · exact ih (by simp) (by simp)
        · exact ih (by simp) (by simpa using ‹left ≠ 0›)
    | body reversed =>
      have hreversed := hstate reversed rfl
      rw [importStatements]
      split
      · exact List.forall_mem_cons.mpr ⟨by simpa using hreversed, ih (by simp) (by simp)⟩
      · rename_i hc
        refine ih (fun reversed' h => ?_) (by simp)
        cases h
        rw [List.mem_cons, not_or]
        exact ⟨Ne.symm hc, hreversed⟩

/-- Nothing that is found has a semicolon. -/
theorem extractImports_semicolon {source path : List Char}
    (h : path ∈ extractImports source) : ';' ∉ path := by
  obtain ⟨body, hbody, hpath⟩ := List.mem_filterMap.mp (List.mem_filter.mp h).1
  have hsemicolon := importStatements_semicolon (by simp) (by simp) body hbody
  clear h hbody
  induction body with
  | nil => cases hpath
  | cons c body ih =>
    rw [List.mem_cons, not_or] at hsemicolon
    rw [firstStringLiteral] at hpath
    split at hpath
    · cases hpath
      exact fun hmem => hsemicolon.2 ((List.takeWhile_sublist _).subset hmem)
    · exact ih hpath hsemicolon.2

theorem found_length {raws found : List (List Char)} (h : List.Forall₂ Taken raws found) :
    ((raws.map Solidity.unescape).filter (· ≠ [])).length ≤ (found.filter (· ≠ [])).length := by
  induction h with
  | nil => exact Nat.le_refl _
  | @cons raw first raws found htaken hrest ih =>
    rw [List.map_cons, List.filter_cons, List.filter_cons]
    by_cases hread : Solidity.unescape raw = []
    · by_cases hfirst : first = []
      · simpa [hread, hfirst] using ih
      · simpa [hread, hfirst] using Nat.le_succ_of_le ih
    · simpa [hread, htaken.ne_nil hread] using ih

/-- Nothing is taken for empty that is read, so lists that agree but for what
is empty agree. -/
theorem found_eq {raws found : List (List Char)} (h : List.Forall₂ Taken raws found)
    (heq : found.filter (· ≠ []) = (raws.map Solidity.unescape).filter (· ≠ [])) :
    found = raws.map Solidity.unescape := by
  induction h with
  | nil => rfl
  | @cons raw first raws found htaken hrest ih =>
    rw [List.map_cons, List.filter_cons, List.filter_cons] at heq
    rw [List.map_cons]
    by_cases hread : Solidity.unescape raw = []
    · by_cases hfirst : first = []
      · simp only [hread, hfirst] at heq ⊢
        rw [ih (by simpa using heq)]
      · have hlength := found_length hrest
        have := congrArg List.length heq
        simp [hread, hfirst] at this
        simp at hlength
        omega
    · simp only [hread, htaken.ne_nil hread, ne_eq, not_false_eq_true, decide_true, if_true,
        List.cons.injEq] at heq
      rw [heq.1, ih (by simpa using heq.2)]

theorem found_plain {raws found : List (List Char)} (h : List.Forall₂ Taken raws found)
    (hplain : ∀ raw ∈ raws, '\\' ∉ raw) : found = raws.map Solidity.unescape := by
  induction h with
  | nil => rfl
  | cons htaken hrest ih =>
    obtain ⟨hraw, hraws⟩ := List.forall_mem_cons.mp hplain
    rw [List.map_cons, htaken.plain_iff.mpr hraw, ih hraws]

/-- A source text that a compiler can read, none of whose literals has the word
`import`, and the paths of its import directives as they are written. -/
structure SourceText (elements : List Element) (raws : List (List Char)) : Prop where
  fits : Solidity.Fits elements
  unit : SourceUnit 0 (Solidity.tokens elements) raws
  literals : ∀ quote raw, .literal quote raw ∈ elements → ¬ ContainsWord raw

/-- The word is seen, once comments are gone, only where it is a directive's
keyword; and line comments end where the plugin ends them. -/
structure OnlyKeywords (elements : List Element) (raws : List (List Char)) : Prop where
  breaks : ∀ text, .lineComment text .cr ∉ elements
  runs : ∀ words, .run words ∈ partsOf elements → OwnKeyword words
  keywords : Solidity.KeywordsBegin (Solidity.tokens elements) raws

/-- Where the word is seen only as a keyword, exactly the paths of the
directives are found if and only if none has a semicolon or an escape. -/
theorem extractImports_iff {elements : List Element} {raws : List (List Char)}
    (h : SourceText elements raws) (hseen : OnlyKeywords elements raws) :
    extractImports (Solidity.source elements) =
      (raws.map Solidity.unescape).filter (· ≠ []) ↔ ∀ raw ∈ raws, ';' ∉ raw ∧ '\\' ∉ raw := by
  have hreads : (∀ raw ∈ raws, ';' ∉ raw) → List.Forall₂ Taken raws
      ((importStatements (.seeking false) (stripComments (Solidity.source elements))).filterMap
        firstStringLiteral) := by
    intro hpaths
    rw [stripComments_source h.fits hseen.breaks, ← partsText_partsOf]
    exact reads_parts (stand_partsOf h.fits) ((partsTokens_partsOf h.fits).symm ▸ h.unit)
      ⟨(partsTokens_partsOf h.fits).symm ▸ hseen.keywords, hseen.runs,
        fun quote raw hraw => h.literals quote raw (literals_partsOf hraw), hpaths⟩
  constructor
  · intro heq
    have hsemicolons : ∀ raw ∈ raws, ';' ∉ raw := by
      intro raw hraw hmem
      obtain ⟨quote, -, hbody⟩ := Solidity.literal_of_token h.fits (h.unit.raw_mem raw hraw)
      have hread : ';' ∈ Solidity.unescape raw :=
        Solidity.mem_unescape (literalBody_of hbody) (by decide) hmem
      have hpath : Solidity.unescape raw ∈ extractImports (Solidity.source elements) := by
        rw [heq]
        exact List.mem_filter.mpr ⟨List.mem_map_of_mem hraw, by simpa using List.ne_nil_of_mem hread⟩
      exact extractImports_semicolon hpath hread
    have htaken := hreads hsemicolons
    have hfound := found_eq htaken heq
    rw [hfound] at htaken
    rw [List.forall₂_map_right_iff, List.forall₂_same] at htaken
    exact fun raw hraw => ⟨hsemicolons raw hraw, (htaken raw hraw).plain_iff.mp rfl⟩
  · intro hpaths
    have htaken := hreads fun raw hraw => (hpaths raw hraw).1
    rw [extractImports, found_plain htaken fun raw hraw => (hpaths raw hraw).2]

theorem containsWord_mem {text : List Char} (h : ContainsWord text) : 'i' ∈ text := by
  obtain ⟨before, after, rfl, -⟩ := h
  simp [importKeyword]

/-- A word that has the keyword as a word is the keyword. -/
theorem containsWord_word {text : List Char} (h : ContainsWord text)
    (hword : ∀ c ∈ text, isWordCharacter c = true) : text = importKeyword := by
  obtain ⟨before, after, rfl, hbefore, hafter⟩ := h
  have hnone : before = [] := by
    rcases List.eq_nil_or_concat before with rfl | ⟨init, c, rfl⟩
    · rfl
    · simp [hword c (by simp)] at hbefore
  have hend : after = [] := by
    cases after with
    | nil => rfl
    | cons c after => simp [hword c (by simp)] at hafter
  rw [hnone, hend]
  rfl

/-- So a run of one plain word has it only as its own. -/
theorem ownKeyword_single {word : List Char} (hword : ∀ c ∈ word, isWordCharacter c = true) :
    OwnKeyword [word] := by
  rintro (h | h)
  · rw [List.flatten_singleton] at h
    rw [containsWord_word h hword]
  · rw [List.mem_singleton.mp h]

/--
Two directives, a list of names (one of which contains the word) from `a.sol` and the plain
`b.sol`, with the word in both kinds of comment and in a state variable's name between them.
-/
def importingUnit : List Element :=
  [.lineComment " import \"c.sol\";".toList .lf, .word importKeyword, .blank ' ', .mark '{',
    .word "Box".toList, .mark ',', .blank ' ', .word "importBox".toList, .blank ' ',
    .word ['a', 's'], .blank ' ', .word "importer".toList, .mark '}', .blank ' ',
    .word ['f', 'r', 'o', 'm'], .blank ' ', .literal '"' "a.sol".toList, .mark ';', .blank ' ',
    .blockComment " import ".toList, .blank '\n', .word "contract".toList, .blank ' ', .word ['C'],
    .blank ' ', .mark '{', .blank ' ', .word "uint".toList, .blank ' ', .word "imports".toList,
    .mark ';', .blank ' ', .mark '}', .blank '\n', .word importKeyword, .blank ' ',
    .literal '"' "b.sol".toList, .mark ';']

/-- Its words, in order. -/
def importingWords : List (List Char) :=
  [importKeyword, "Box".toList, "importBox".toList, ['a', 's'], "importer".toList,
    ['f', 'r', 'o', 'm'], "contract".toList, ['C'], "uint".toList, "imports".toList, importKeyword]

theorem importingUnit_read : extractImports (Solidity.source importingUnit) =
    (["a.sol".toList, "b.sol".toList].map Solidity.unescape).filter (· ≠ []) ↔
      ∀ raw ∈ ["a.sol".toList, "b.sol".toList], ';' ∉ raw ∧ '\\' ∉ raw := by
  have hsymbols : Solidity.Symbols [.word "Box".toList, .mark ',', .word "importBox".toList,
      .word ['a', 's'], .word "importer".toList] :=
    .more (.one (by decide)) (.renamed (by decide) (by decide))
  have hunit : SourceUnit 0 (Solidity.tokens importingUnit) ["a.sol".toList, "b.sol".toList] :=
    .directive (.named _ hsymbols) <|
      .others [.word "contract".toList, .word ['C']] (by decide) <| .opening <|
        .others [.word "uint".toList, .word "imports".toList, .mark ';'] (by decide) <|
          .closing <| .directive (.plain _) .done
  refine extractImports_iff ⟨by decide, hunit, ?_⟩ ⟨?_, ?_, rfl⟩
  · rintro quote raw hraw hword
    have hraws : quote = '"' ∧ raw = "a.sol".toList ∨ quote = '"' ∧ raw = "b.sol".toList := by
      simpa [importingUnit] using hraw
    have hi : 'i' ∉ raw := by rcases hraws with ⟨-, rfl⟩ | ⟨-, rfl⟩ <;> decide
    exact hi (containsWord_mem hword)
  · simp [importingUnit]
  · intro words hrun
    have hmem : words ∈ importingWords.map fun word => [word] := by
      simpa [importingWords, importingUnit, partsOf, joinWord] using hrun
    obtain ⟨word, hword, rfl⟩ := List.mem_map.mp hmem
    have hchars : importingWords.all (·.all isWordCharacter) = true := by decide
    exact ownKeyword_single (List.all_eq_true.mp (List.all_eq_true.mp hchars word hword))

/-- `import "a.sol";` -/
def plainImport : List Element :=
  [.word importKeyword, .blank ' ', .literal '"' "a.sol".toList, .mark ';']

/-- `import "a;b.sol";` -/
def semicolonPath : List Element :=
  [.word importKeyword, .blank ' ', .literal '"' "a;b.sol".toList, .mark ';']

/-- `string constant $import = "a.sol";` -/
def dollarName : List Element :=
  [.word "string".toList, .blank ' ', .word "constant".toList, .blank ' ',
    .word ('$' :: importKeyword), .blank ' ', .mark '=', .blank ' ', .literal '"' "a.sol".toList,
    .mark ';']

/-- `type im is bytes32; contract C { im/**/port = im.wrap("a.sol"); }` -/
def gluedWords : List Element :=
  [.word "type".toList, .blank ' ', .word ['i', 'm'], .blank ' ', .word ['i', 's'], .blank ' ',
    .word "bytes32".toList, .mark ';', .blank ' ', .word "contract".toList, .blank ' ', .word ['C'],
    .blank ' ', .mark '{', .blank ' ', .word ['i', 'm'], .blockComment [],
    .word ['p', 'o', 'r', 't'], .blank ' ', .mark '=', .blank ' ', .word ['i', 'm'], .mark '.',
    .word "wrap".toList, .mark '(', .literal '"' "a.sol".toList, .mark ')', .mark ';', .blank ' ',
    .mark '}']

/-- A line comment that ends at a bare carriage return, and an import behind
it. -/
def returnedComment : List Element := .lineComment " a".toList .cr :: plainImport

theorem imports_misread :
    (SourceText semicolonPath ["a;b.sol".toList] ∧
      extractImports (Solidity.source semicolonPath) = []) ∧
    (SourceText dollarName [] ∧ extractImports (Solidity.source dollarName) = ["a.sol".toList]) ∧
    (SourceText gluedWords [] ∧ extractImports (Solidity.source gluedWords) = ["a.sol".toList]) ∧
    SourceText returnedComment ["a.sol".toList] ∧
      extractImports (Solidity.source returnedComment) = [] := by
  have hplain : ∀ {elements : List Element} (raw : List Char), 'i' ∉ raw →
      (∀ quote raw', .literal quote raw' ∈ elements → raw' = raw) →
        ∀ quote raw', .literal quote raw' ∈ elements → ¬ ContainsWord raw' := by
    intro elements raw hraw honly quote raw' hmem hword
    exact hraw (honly quote raw' hmem ▸ containsWord_mem hword)
  refine ⟨⟨⟨by decide, .directive (.plain _) .done, ?_⟩, by decide⟩,
    ⟨⟨by decide, ?_, ?_⟩, by decide⟩, ⟨⟨by decide, ?_, ?_⟩, by decide⟩,
    ⟨by decide, .directive (.plain _) .done, ?_⟩, by decide⟩
  · exact hplain "a;b.sol".toList (by decide) (by simp [semicolonPath])
  · exact .others (Solidity.tokens dollarName) (by decide) .done
  · exact hplain "a.sol".toList (by decide) (by simp [dollarName])
  · exact .others ((Solidity.tokens gluedWords).take 7) (by decide) <| .opening <|
      .others (((Solidity.tokens gluedWords).drop 8).take 10) (by decide) <| .closing .done
  · exact hplain "a.sol".toList (by decide) (by simp [gluedWords])
  · exact hplain "a.sol".toList (by decide) (by simp [returnedComment, plainImport])

end TronUpgrades.Validation
