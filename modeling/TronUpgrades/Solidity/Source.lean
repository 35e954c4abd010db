import Mathlib.Data.List.Basic

/-!
# Solidity source texts

A source text is a sequence of lexical elements: words (keywords, identifiers
and numbers), string literals, single marks, blanks and comments. What is left
without blanks and comments are its tokens, and its import directives stand
between its braces' outermost level. Beyond that the grammar is not looked at:
every text of the language is such a sequence.
-/

namespace Solidity

-- ---------------------------------------------------------------------------
-- Lexical elements
-- ---------------------------------------------------------------------------

def isIdentifierPart (c : Char) : Bool :=
  ('0' ≤ c && c ≤ '9') || ('a' ≤ c && c ≤ 'z') || ('A' ≤ c && c ≤ 'Z') || c == '_' || c == '$'

def isQuote (c : Char) : Bool := c == '"' || c == Char.ofNat 39

def isBlank (c : Char) : Bool :=
  c == ' ' || c == '\t' || c == '\n' || c == '\r' || c == Char.ofNat 12

/-- How a line comment ends. -/
inductive LineEnd
  | lf | crlf | cr | eof
  deriving DecidableEq

def LineEnd.text : LineEnd → List Char
  | .lf => ['\n']
  | .crlf => ['\r', '\n']
  | .cr => ['\r']
  | .eof => []

inductive Element
  | word (chars : List Char)
  /-- What stands between the quotes, its escapes as they are written. -/
  | literal (quote : Char) (raw : List Char)
  | mark (c : Char)
  | blank (c : Char)
  | lineComment (text : List Char) (ending : LineEnd)
  | blockComment (text : List Char)
  deriving DecidableEq

def Element.text : Element → List Char
  | .word chars => chars
  | .literal quote raw => quote :: (raw ++ [quote])
  | .mark c => [c]
  | .blank c => [c]
  | .lineComment text ending => '/' :: '/' :: (text ++ ending.text)
  | .blockComment text => '/' :: '*' :: (text ++ ['*', '/'])

def source (elements : List Element) : List Char := (elements.map Element.text).flatten

def isHexDigit (c : Char) : Bool :=
  ('0' ≤ c && c ≤ '9') || ('a' ≤ c && c ≤ 'f') || ('A' ≤ c && c ≤ 'F')

/-- Escapes are whole, and outside them stand neither the quote nor a line
break. -/
def isLiteralBody (quote : Char) : List Char → Bool
  | [] => true
  | '\\' :: 'x' :: h :: l :: raw => [h, l].all isHexDigit && isLiteralBody quote raw
  | '\\' :: 'u' :: a :: b :: c :: d :: raw =>
    [a, b, c, d].all isHexDigit && isLiteralBody quote raw
  | '\\' :: c :: raw => c != 'x' && c != 'u' && isLiteralBody quote raw
  | c :: raw => c != quote && c != '\\' && c != '\n' && c != '\r' && isLiteralBody quote raw

/-- `*/` stands nowhere. -/
def isCommentBody : List Char → Bool
  | '*' :: '/' :: _ => false
  | _ :: text => isCommentBody text
  | [] => true

/-- An element as the lexer takes it, before this text: a word as long as it
can be, and no mark that begins a comment. -/
def Element.Fits (next : List Char) : Element → Prop
  | .word chars => chars ≠ [] ∧ (∀ c ∈ chars, isIdentifierPart c = true) ∧
      next.head?.all (!isIdentifierPart ·) = true
  | .literal quote raw => isQuote quote = true ∧ isLiteralBody quote raw = true
  | .mark c => (isIdentifierPart c = false ∧ isQuote c = false ∧ isBlank c = false) ∧
      (c = '/' → next.head? ≠ some '/' ∧ next.head? ≠ some '*')
  | .blank c => isBlank c = true
  | .lineComment text ending => ('\n' ∉ text ∧ '\r' ∉ text) ∧
      (ending = .cr → next.head? ≠ some '\n') ∧ (ending = .eof → next = [])
  | .blockComment text => isCommentBody text = true

instance decidableElementFits (next : List Char) : (element : Element) → Decidable (element.Fits next)
  | .word chars =>
    have : Decidable (∀ c ∈ chars, isIdentifierPart c = true) := List.decidableBAll _ chars
    inferInstanceAs (Decidable (_ ∧ _ ∧ _))
  | .literal _ _ => inferInstanceAs (Decidable (_ ∧ _))
  | .mark _ => inferInstanceAs (Decidable ((_ ∧ _ ∧ _) ∧ (_ → _ ∧ _)))
  | .blank _ => inferInstanceAs (Decidable (_ = _))
  | .lineComment _ _ => inferInstanceAs (Decidable ((_ ∧ _) ∧ (_ → _) ∧ (_ → _)))
  | .blockComment _ => inferInstanceAs (Decidable (_ = _))

def Fits : List Element → Prop
  | [] => True
  | element :: rest => element.Fits (source rest) ∧ Fits rest

instance decidableFits : (elements : List Element) → Decidable (Fits elements)
  | [] => inferInstanceAs (Decidable True)
  | element :: rest =>
    have : Decidable (Fits rest) := decidableFits rest
    inferInstanceAs (Decidable (element.Fits (source rest) ∧ Fits rest))

-- ---------------------------------------------------------------------------
-- Tokens and directives
-- ---------------------------------------------------------------------------

inductive Token
  | word (chars : List Char)
  | literal (raw : List Char)
  | mark (c : Char)
  deriving DecidableEq

def Element.token? : Element → Option Token
  | .word chars => some (.word chars)
  | .literal _ raw => some (.literal raw)
  | .mark c => some (.mark c)
  | _ => none

def tokens (elements : List Element) : List Token := elements.filterMap Element.token?

def importKeyword : List Char := ['i', 'm', 'p', 'o', 'r', 't']

/-- `A, B as C` -/
inductive Symbols : List Token → Prop
  | one {name : List Char} (hname : name ≠ importKeyword) : Symbols [.word name]
  | renamed {name newName : List Char} (hname : name ≠ importKeyword)
      (hnewName : newName ≠ importKeyword) :
    Symbols [.word name, .word ['a', 's'], .word newName]
  | more {first rest : List Token} (hfirst : Symbols first) (hrest : Symbols rest) :
    Symbols (first ++ .mark ',' :: rest)

/-- What follows `import` up to its semicolon, and the literal that has the
path. -/
inductive Directive : List Token → List Char → Prop
  | plain (raw : List Char) : Directive [.literal raw] raw
  | aliased (raw : List Char) {name : List Char} (hname : name ≠ importKeyword) :
    Directive [.literal raw, .word ['a', 's'], .word name] raw
  | wildcard (raw : List Char) {name : List Char} (hname : name ≠ importKeyword) :
    Directive [.mark '*', .word ['a', 's'], .word name, .word ['f', 'r', 'o', 'm'], .literal raw]
      raw
  | named (raw : List Char) {symbols : List Token} (hsymbols : Symbols symbols) :
    Directive (.mark '{' :: (symbols ++ [.mark '}', .word ['f', 'r', 'o', 'm'], .literal raw])) raw

/-- A source unit from so many braces deep, and the literals of its
directives: below the outermost level there are none, and on it the keyword
begins one. -/
inductive SourceUnit : Nat → List Token → List (List Char) → Prop
  | done : SourceUnit 0 [] []
  | directive {directive rest : List Token} {raw : List Char} {raws : List (List Char)}
      (hdirective : Directive directive raw) (hrest : SourceUnit 0 rest raws) :
    SourceUnit 0 (.word importKeyword :: (directive ++ .mark ';' :: rest)) (raw :: raws)
  | opening {depth : Nat} {rest : List Token} {raws : List (List Char)}
      (hrest : SourceUnit (depth + 1) rest raws) : SourceUnit depth (.mark '{' :: rest) raws
  | closing {depth : Nat} {rest : List Token} {raws : List (List Char)}
      (hrest : SourceUnit depth rest raws) : SourceUnit (depth + 1) (.mark '}' :: rest) raws
  | other {depth : Nat} {token : Token} {rest : List Token} {raws : List (List Char)}
      (hbrace : token ≠ .mark '{' ∧ token ≠ .mark '}')
      (hkeyword : depth = 0 → token ≠ .word importKeyword) (hrest : SourceUnit depth rest raws) :
    SourceUnit depth (token :: rest) raws

/-- Tokens that are neither braces nor the keyword are passed together. -/
theorem SourceUnit.others {depth : Nat} (others : List Token) {rest : List Token}
    {raws : List (List Char)}
    (h : ∀ token ∈ others, (token ≠ .mark '{' ∧ token ≠ .mark '}') ∧ token ≠ .word importKeyword)
    (hrest : SourceUnit depth rest raws) : SourceUnit depth (others ++ rest) raws := by
  induction others with
  | nil => exact hrest
  | cons token others ih =>
    obtain ⟨htoken, hothers⟩ := List.forall_mem_cons.mp h
    exact .other htoken.1 (fun _ => htoken.2) (ih hothers)

/-- The keyword stands nowhere but where a directive begins. -/
def KeywordsBegin (tokens : List Token) (raws : List (List Char)) : Prop :=
  tokens.count (.word importKeyword) = raws.length

theorem literal_of_token {elements : List Element} {raw : List Char} (h : Fits elements)
    (hmem : .literal raw ∈ tokens elements) :
    ∃ quote, isQuote quote = true ∧ isLiteralBody quote raw = true := by
  obtain ⟨element, helement, htoken⟩ := List.mem_filterMap.mp hmem
  have hliteral : ∃ quote, element = .literal quote raw := by
    cases element <;> simp_all [Element.token?]
  obtain ⟨quote, rfl⟩ := hliteral
  refine ⟨quote, ?_⟩
  induction elements with
  | nil => exact absurd helement List.not_mem_nil
  | cons element rest ih =>
    rcases List.mem_cons.mp helement with rfl | helement
    · exact h.1
    · exact ih h.2 (List.mem_filterMap.mpr ⟨_, helement, htoken⟩) helement

-- ---------------------------------------------------------------------------
-- The tokens of a directive
-- ---------------------------------------------------------------------------

theorem Symbols.words {symbols : List Token} (h : Symbols symbols) : ∀ token ∈ symbols,
    token = .mark ',' ∨ ∃ name, token = .word name ∧ name ≠ importKeyword := by
  induction h with
  | one hname => simpa using hname
  | renamed hname hnewName => simpa [importKeyword] using ⟨hname, hnewName⟩
  | more hfirst hrest ihfirst ihrest =>
    intro token htoken
    rw [List.mem_append, List.mem_cons] at htoken
    rcases htoken with h | rfl | h
    · exact ihfirst token h
    · exact .inl rfl
    · exact ihrest token h

namespace Directive

variable {directive : List Token} {raw : List Char}

/-- Neither the keyword nor a semicolon, and no literal but the path's. -/
theorem token (h : Directive directive raw) : ∀ token ∈ directive,
    token ≠ .word importKeyword ∧ token ≠ .mark ';' ∧ ∀ raw', token = .literal raw' → raw' = raw := by
  cases h with
  | plain => simp
  | aliased _ hname => simpa [importKeyword] using hname
  | wildcard _ hname => simpa [importKeyword] using hname
  | named _ hsymbols =>
    intro token htoken
    simp only [List.mem_cons, List.mem_append, List.not_mem_nil, or_false] at htoken
    rcases htoken with rfl | h | rfl | rfl | rfl
    · simp
    · rcases hsymbols.words token h with rfl | ⟨name, rfl, hname⟩
      · simp
      · simpa using hname
    · simp
    · simp [importKeyword]
    · simp

theorem literal_mem (h : Directive directive raw) : .literal raw ∈ directive := by
  cases h <;> simp

theorem count (h : Directive directive raw) : directive.count (.word importKeyword) = 0 :=
  List.count_eq_zero.mpr fun hmem => (h.token _ hmem).1 rfl

end Directive

/-- There is a keyword for each directive. -/
theorem SourceUnit.le_count {depth : Nat} {tokens : List Token} {raws : List (List Char)}
    (h : SourceUnit depth tokens raws) : raws.length ≤ tokens.count (.word importKeyword) := by
  induction h with
  | done => exact Nat.le_refl _
  | directive hdirective hrest ih =>
    rw [List.count_cons_self, List.count_append, hdirective.count, List.length_cons,
      List.count_cons_of_ne (by simp)]
    omega
  | opening hrest ih => exact Nat.le_trans ih List.count_le_count_cons
  | closing hrest ih => exact Nat.le_trans ih List.count_le_count_cons
  | other hbrace hkeyword hrest ih => exact Nat.le_trans ih List.count_le_count_cons

theorem SourceUnit.raw_mem {depth : Nat} {tokens : List Token} {raws : List (List Char)}
    (h : SourceUnit depth tokens raws) : ∀ raw ∈ raws, .literal raw ∈ tokens := by
  induction h with
  | done => exact fun _ hraw => absurd hraw List.not_mem_nil
  | directive hdirective hrest ih =>
    intro raw' hraw'
    rcases List.mem_cons.mp hraw' with rfl | hraw'
    · exact List.mem_cons_of_mem _ (List.mem_append_left _ hdirective.literal_mem)
    · exact List.mem_cons_of_mem _ (List.mem_append_right _ (List.mem_cons_of_mem _ (ih _ hraw')))
  | opening hrest ih | closing hrest ih | other hbrace hkeyword hrest ih =>
    exact fun raw hraw => List.mem_cons_of_mem _ (ih raw hraw)

/-- What is no keyword can be passed, to some depth. -/
theorem SourceUnit.skip {depth : Nat} {first rest : List Token} {raws : List (List Char)}
    (h : SourceUnit depth (first ++ rest) raws) (hfirst : .word importKeyword ∉ first) :
    ∃ depth, SourceUnit depth rest raws := by
  induction first generalizing depth with
  | nil => exact ⟨depth, h⟩
  | cons token first ih =>
    rw [List.mem_cons, not_or] at hfirst
    generalize hline : token :: first ++ rest = line at h
    cases h with
    | done => cases hline
    | directive => exact absurd (List.cons.inj hline).1.symm hfirst.1
    | opening hrest => exact ih ((List.cons.inj hline).2 ▸ hrest) hfirst.2
    | closing hrest => exact ih ((List.cons.inj hline).2 ▸ hrest) hfirst.2
    | other _ _ hrest => exact ih ((List.cons.inj hline).2 ▸ hrest) hfirst.2

-- ---------------------------------------------------------------------------
-- What a literal stands for
-- ---------------------------------------------------------------------------

def hexValue (c : Char) : Nat :=
  if c ≤ '9' then c.toNat - 48 else if c ≤ 'F' then c.toNat - 55 else c.toNat - 87

/-- The character of so many hexadecimal digits. -/
def codePoint (digits : List Char) : Char :=
  Char.ofNat (digits.foldl (fun value c => value * 16 + hexValue c) 0)

/-- A backslash before a line break leaves nothing. -/
def escaped (c : Char) : List Char :=
  if c = '\n' then [] else if c = 'n' then ['\n'] else if c = 'r' then ['\r']
  else if c = 't' then ['\t'] else [c]

/-- A literal's text, its escapes taken for what they stand for. -/
def unescape : List Char → List Char
  | [] => []
  | '\\' :: 'x' :: h :: l :: raw => codePoint [h, l] :: unescape raw
  | '\\' :: 'u' :: a :: b :: c :: d :: raw => codePoint [a, b, c, d] :: unescape raw
  | '\\' :: c :: raw => escaped c ++ unescape raw
  | c :: raw => c :: unescape raw

section
variable {quote c : Char} {raw : List Char}

theorem unescape_cons (hc : c ≠ '\\') : unescape (c :: raw) = c :: unescape raw := by
  rw [unescape]
  all_goals simp [hc]

theorem unescape_escape (letter : c ≠ 'x' ∧ c ≠ 'u') :
    unescape ('\\' :: c :: raw) = escaped c ++ unescape raw := by
  rw [unescape]
  · rintro _ _ _ rfl
    exact absurd rfl letter.1
  · rintro _ _ _ _ _ rfl
    exact absurd rfl letter.2

theorem unescape_plain {raw : List Char} (h : '\\' ∉ raw) : unescape raw = raw := by
  induction raw with
  | nil => rfl
  | cons c raw ih =>
    rw [List.mem_cons, not_or] at h
    rw [unescape_cons (Ne.symm h.1), ih h.2]

/-- A literal's text, one character or escape at a time. -/
inductive LiteralBody (quote : Char) : List Char → Prop
  | nil : LiteralBody quote []
  | hex {d l : Char} {raw : List Char} (digits : isHexDigit d = true ∧ isHexDigit l = true)
    (body : LiteralBody quote raw) : LiteralBody quote ('\\' :: 'x' :: d :: l :: raw)
  | unicode {a b d e : Char} {raw : List Char}
    (digits : isHexDigit a = true ∧ isHexDigit b = true ∧ isHexDigit d = true ∧ isHexDigit e = true)
    (body : LiteralBody quote raw) : LiteralBody quote ('\\' :: 'u' :: a :: b :: d :: e :: raw)
  | escape {c : Char} {raw : List Char} (letter : c ≠ 'x' ∧ c ≠ 'u')
    (body : LiteralBody quote raw) : LiteralBody quote ('\\' :: c :: raw)
  | plain {c : Char} {raw : List Char} (inside : c ≠ quote ∧ c ≠ '\\')
    (body : LiteralBody quote raw) : LiteralBody quote (c :: raw)

theorem literalBody_of (h : isLiteralBody quote raw = true) : LiteralBody quote raw := by
  fun_induction isLiteralBody quote raw with
  | case1 => exact .nil
  | case2 d l raw ih =>
    simp only [List.all_cons, List.all_nil, Bool.and_true, Bool.and_eq_true] at h
    exact .hex h.1 (ih h.2)
  | case3 a b d e raw ih =>
    simp only [List.all_cons, List.all_nil, Bool.and_true, Bool.and_eq_true] at h
    exact .unicode h.1 (ih h.2)
  | case4 c raw _ _ ih =>
    simp only [Bool.and_eq_true, bne_iff_ne] at h
    exact .escape h.1 (ih h.2)
  | case5 c raw _ _ _ ih =>
    simp only [Bool.and_eq_true, bne_iff_ne] at h
    exact .plain h.1.1.1 (ih h.2)

/-- A character that no escape is made of stays. -/
theorem mem_unescape (h : LiteralBody quote raw)
    (hc : isHexDigit c = false ∧ c ≠ '\\' ∧ c ≠ 'x' ∧ c ≠ 'u' ∧ escaped c = [c]) (hmem : c ∈ raw) :
    c ∈ unescape raw := by
  have hhex : ∀ {c'}, isHexDigit c' = true → c ≠ c' := by
    rintro c' hc' rfl
    rw [hc.1] at hc'
    cases hc'
  induction h with
  | nil => exact hmem
  | hex digits _ ih =>
    simp only [List.mem_cons, hc.2.1, hc.2.2.1, hhex digits.1, hhex digits.2, false_or] at hmem
    exact List.mem_cons_of_mem _ (ih hmem)
  | unicode digits _ ih =>
    obtain ⟨ha, hb, hd, he⟩ := digits
    simp only [List.mem_cons, hc.2.1, hc.2.2.2.1, hhex ha, hhex hb, hhex hd, hhex he, false_or]
      at hmem
    exact List.mem_cons_of_mem _ (ih hmem)
  | escape letter _ ih =>
    rw [unescape_escape letter]
    rcases (List.mem_cons.mp hmem).resolve_left hc.2.1 with _ | ⟨_, hmem⟩
    · rw [hc.2.2.2.2]
      exact List.mem_append_left _ List.mem_cons_self
    · exact List.mem_append_right _ (ih hmem)
  | plain inside _ ih =>
    rw [unescape_cons inside.2]
    rcases List.mem_cons.mp hmem with rfl | hmem
    · exact List.mem_cons_self
    · exact List.mem_cons_of_mem _ (ih hmem)

theorem length_escaped (c : Char) : (escaped c).length ≤ 1 := by
  unfold escaped
  repeat' split
  all_goals simp

/-- Every escape is longer than what it stands for. -/
theorem length_unescape (h : LiteralBody quote raw) :
    (unescape raw).length ≤ raw.length ∧ ('\\' ∈ raw → (unescape raw).length < raw.length) := by
  induction h with
  | nil => simp [unescape]
  | hex _ _ ih | unicode _ _ ih =>
    have := ih.1
    simp only [unescape, List.length_cons]
    omega
  | @escape c _ letter _ ih =>
    have := ih.1
    have := length_escaped c
    simp only [unescape_escape letter, List.length_cons, List.length_append]
    omega
  | plain inside _ ih =>
    obtain ⟨hle, hlt⟩ := ih
    simp only [unescape_cons inside.2, List.length_cons, List.mem_cons, Ne.symm inside.2, false_or]
    exact ⟨by omega, fun hmem => Nat.succ_lt_succ (hlt hmem)⟩

end

end Solidity
