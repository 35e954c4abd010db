/-!
# Backtracking matches

ECMAScript patterns under the flag `m`. `Pattern.ends` is every place a match
that begins at a place can end at, in the order in which the matcher tries
them; `matchAll` takes the first at the leftmost place and goes on behind it.
A pattern that begins by skipping what its rest cannot begin with has no choice
there (`ends_skip`), and a repetition of single characters takes the longest
run (`head_run`).
-/

namespace Regex

/-- A place of a text, as the character before it and the text after it. -/
structure Place where
  last : Option Char
  after : List Char
  deriving DecidableEq, Repr

/-- LineTerminator -/
def isTerminator (c : Char) : Bool := [0xA, 0xD, 0x2028, 0x2029].contains c.toNat

def Place.atLineStart (place : Place) : Bool := place.last.all isTerminator

def Place.atLineEnd (place : Place) : Bool := place.after.head?.all isTerminator

def Place.next? : Place → Option Place
  | ⟨_, []⟩ => none
  | ⟨_, c :: after⟩ => some ⟨some c, after⟩

inductive Pattern
  | char (accepts : Char → Bool)
  /-- `^` -/
  | lineStart
  /-- `$` -/
  | lineEnd
  | seq (first second : Pattern)
  | alt (first second : Pattern)
  /-- `(?:body)*` -/
  | star (body : Pattern)
  /-- `(?!body)` -/
  | unless (body : Pattern)
  /-- `(body)` -/
  | group (body : Pattern)

/-- A match so far, with what its groups took, the last closed first. -/
structure Found where
  place : Place
  groups : List (List Char)
  deriving DecidableEq, Repr

/-- The text between two places. -/
def taken (start stop : Place) : List Char :=
  start.after.take (start.after.length - stop.after.length)

/-- The rounds of a greedy repetition; one that takes nothing is refused. -/
def rounds (body : Found → List Found) : Nat → Found → List Found
  | 0, found => [found]
  | fuel + 1, found =>
    let nexts := (body found).filter fun next => next.place.after.length < found.place.after.length
    nexts.flatMap (rounds body fuel) ++ [found]

namespace Pattern

def ends : Pattern → Found → List Found
  | .char accepts, found =>
    match found.place.after with
    | [] => []
    | c :: after => if accepts c then [{ found with place := ⟨some c, after⟩ }] else []
  | .lineStart, found => if found.place.atLineStart then [found] else []
  | .lineEnd, found => if found.place.atLineEnd then [found] else []
  | .seq first second, found => (first.ends found).flatMap second.ends
  | .alt first second, found => first.ends found ++ second.ends found
  | .star body, found => rounds body.ends found.place.after.length found
  | .unless body, found => if (body.ends found).isEmpty then [found] else []
  | .group body, found =>
    (body.ends found).map fun next =>
      { next with groups := taken found.place next.place :: next.groups }

/-- The characters of a word, and then a pattern. -/
def literal : List Char → Pattern → Pattern
  | [], rest => rest
  | c :: word, rest => .seq (.char (· == c)) (literal word rest)

/-- `[accepts]+` -/
def plus (accepts : Char → Bool) : Pattern := .seq (.char accepts) (.star (.char accepts))

/-- The match that begins at a place. -/
def firstAt (p : Pattern) (place : Place) : Option Found := (p.ends ⟨place, []⟩).head?

/-- Where the search goes on: an empty match is stepped over. -/
def resume (start stop : Place) : Option Place := if stop = start then start.next? else some stop

def matchesFrom (p : Pattern) : Nat → Place → List Found
  | 0, _ => []
  | fuel + 1, place =>
    match p.firstAt place with
    | some found => found :: (resume place found.place).elim [] (p.matchesFrom fuel)
    | none => place.next?.elim [] (p.matchesFrom fuel)

/-- `text.matchAll(p)` -/
def matchAll (p : Pattern) (text : List Char) : List Found :=
  p.matchesFrom (text.length + 1) ⟨none, text⟩

/-- `p.test(text)` -/
def test (p : Pattern) (text : List Char) : Bool := !(p.matchAll text).isEmpty

end Pattern

-- ---------------------------------------------------------------------------
-- A match goes forward
-- ---------------------------------------------------------------------------

/-- The same place, or one with less after it. -/
def Onward (start stop : Place) : Prop := stop = start ∨ stop.after.length < start.after.length

theorem Onward.trans {start between stop : Place} (h : Onward start between)
    (h' : Onward between stop) : Onward start stop := by
  obtain rfl | hlt := h
  · exact h'
  · obtain rfl | hlt' := h'
    · exact .inr hlt
    · exact .inr (Nat.lt_trans hlt' hlt)

theorem rounds_onward {body : Found → List Found} {found next : Found} (fuel : Nat)
    (h : next ∈ rounds body fuel found) : Onward found.place next.place := by
  induction fuel generalizing found with
  | zero =>
    rw [List.mem_singleton.mp h]
    exact .inl rfl
  | succ fuel ih =>
    simp only [rounds, List.mem_append, List.mem_flatMap, List.mem_filter, decide_eq_true_eq,
      List.mem_singleton] at h
    obtain ⟨between, ⟨-, hlt⟩, hnext⟩ | rfl := h
    · exact Onward.trans (.inr hlt) (ih hnext)
    · exact .inl rfl

theorem Pattern.ends_onward {p : Pattern} {found next : Found} (h : next ∈ p.ends found) :
    Onward found.place next.place := by
  induction p generalizing found next with
  | char accepts =>
    unfold ends at h
    split at h
    · simp at h
    · rename_i c after hafter
      split at h
      · rw [List.mem_singleton.mp h]
        exact .inr (by simp [hafter])
      · simp at h
  | lineStart | lineEnd | «unless» =>
    unfold ends at h
    split at h <;> simp_all [Onward]
  | seq first second ihfirst ihsecond =>
    obtain ⟨between, hfirst, hsecond⟩ := List.mem_flatMap.mp h
    exact (ihfirst hfirst).trans (ihsecond hsecond)
  | alt first second ihfirst ihsecond =>
    exact (List.mem_append.mp h).elim ihfirst ihsecond
  | star body ih => exact rounds_onward _ h
  | group body ih =>
    obtain ⟨inner, hinner, rfl⟩ := List.mem_map.mp h
    have hinner' : Onward found.place inner.place := ih hinner
    exact hinner'

theorem Place.next?_lt {place next : Place} (h : place.next? = some next) :
    next.after.length < place.after.length := by
  obtain ⟨last, _ | ⟨c, after⟩⟩ := place
  · cases h
  · cases h
    simp

namespace Pattern

variable {p : Pattern} {place next : Place} {found : Found} {fuel fuel' : Nat}

theorem firstAt_onward (h : p.firstAt place = some found) : Onward place found.place := by
  have hmem : found ∈ p.ends ⟨place, []⟩ := List.mem_of_mem_head? h
  exact ends_onward hmem

theorem resume_lt (h : p.firstAt place = some found) (hnext : resume place found.place = some next) :
    next.after.length < place.after.length := by
  unfold resume at hnext
  split at hnext
  · exact Place.next?_lt hnext
  · rename_i hne
    cases hnext
    exact (firstAt_onward h).resolve_left hne

theorem matchesFrom_fuel (h : place.after.length < fuel) (h' : place.after.length < fuel') :
    p.matchesFrom fuel place = p.matchesFrom fuel' place := by
  induction fuel generalizing place fuel' with
  | zero => omega
  | succ fuel ih =>
    cases fuel' with
    | zero => omega
    | succ fuel' =>
      have hrest : ∀ next : Place, next.after.length < place.after.length →
          p.matchesFrom fuel next = p.matchesFrom fuel' next := fun next hlt =>
        ih (by omega) (by omega)
      unfold matchesFrom
      cases hfirst : p.firstAt place with
      | none =>
        cases hnext : place.next? with
        | none => rfl
        | some next => exact hrest next (Place.next?_lt hnext)
      | some found =>
        cases hnext : resume place found.place with
        | none => simp [hnext]
        | some next => simp [hnext, hrest next (resume_lt hfirst hnext)]

/-- The matches from a place on. -/
def matchesAt (p : Pattern) (place : Place) : List Found :=
  p.matchesFrom (place.after.length + 1) place

theorem matchesAt_next (h : p.firstAt place = none) (hnext : place.next? = some next) :
    p.matchesAt place = p.matchesAt next := by
  have hlt := Place.next?_lt hnext
  rw [matchesAt, matchesFrom, h]
  simp only [hnext, Option.elim_some]
  exact matchesFrom_fuel (by omega) (by omega)

theorem matchesAt_end (h : p.firstAt place = none) (hnext : place.next? = none) :
    p.matchesAt place = [] := by
  rw [matchesAt, matchesFrom, h]
  simp [hnext]

theorem matchesAt_found (h : p.firstAt place = some found) (hne : found.place ≠ place) :
    p.matchesAt place = found :: p.matchesAt found.place := by
  have hlt := (firstAt_onward h).resolve_left hne
  have hresume : resume place found.place = some found.place := if_neg hne
  rw [matchesAt, matchesFrom, h]
  simp only [hresume, Option.elim_some]
  rw [matchesAt, matchesFrom_fuel (by omega) (Nat.lt_succ_self _)]

theorem firstAt_of_nil (h : p.matchesAt place = []) : p.firstAt place = none := by
  cases hfirst : p.firstAt place with
  | none => rfl
  | some found =>
    rw [matchesAt, matchesFrom, hfirst] at h
    cases h

/-- A pattern that begins nowhere but where another does matches nothing where
that one does not. -/
theorem matchesAt_nil {q : Pattern} (hfirst : ∀ place, q.firstAt place = none → p.firstAt place = none)
    {last : Option Char} {after : List Char} (h : q.matchesAt ⟨last, after⟩ = []) :
    p.matchesAt ⟨last, after⟩ = [] := by
  have hq := firstAt_of_nil h
  induction after generalizing last with
  | nil => exact matchesAt_end (hfirst _ hq) rfl
  | cons c after ih =>
    rw [matchesAt_next hq rfl] at h
    rw [matchesAt_next (hfirst _ hq) rfl]
    exact ih h (firstAt_of_nil h)

end Pattern

-- ---------------------------------------------------------------------------
-- Skipping
-- ---------------------------------------------------------------------------

def Place.skip (accepts : Char → Bool) (last : Option Char) : List Char → Place
  | [] => ⟨last, []⟩
  | c :: after => if accepts c then skip accepts (some c) after else ⟨last, c :: after⟩

theorem Place.skip_after (accepts : Char → Bool) (last : Option Char) (after : List Char) :
    (Place.skip accepts last after).after = after.dropWhile accepts := by
  induction after generalizing last with
  | nil => rfl
  | cons c after ih =>
    unfold Place.skip
    cases h : accepts c <;> simp [h, ih]

namespace Pattern

section
variable {accepts : Char → Bool} {body first second : Pattern} {found : Found}
  {last : Option Char} {c : Char} {after : List Char} {groups : List (List Char)}

@[simp] theorem ends_char_nil : (char accepts).ends ⟨⟨last, []⟩, groups⟩ = [] := rfl

@[simp] theorem ends_char_cons : (char accepts).ends ⟨⟨last, c :: after⟩, groups⟩ =
    if accepts c then [⟨⟨some c, after⟩, groups⟩] else [] := rfl

@[simp] theorem ends_lineStart :
    lineStart.ends found = if found.place.atLineStart then [found] else [] := rfl

@[simp] theorem ends_seq : (seq first second).ends found =
    (first.ends found).flatMap second.ends := rfl

@[simp] theorem ends_alt : (alt first second).ends found =
    first.ends found ++ second.ends found := rfl

@[simp] theorem ends_unless : (Pattern.unless body).ends found =
    if (body.ends found).isEmpty then [found] else [] := rfl

@[simp] theorem ends_group : (group body).ends found = (body.ends found).map fun next =>
    { next with groups := taken found.place next.place :: next.groups } := rfl

/-- A repetition can always stop at once. -/
theorem star_ne_nil : (star body).ends found ≠ [] := by
  unfold ends
  cases found.place.after.length <;> simp [rounds]

theorem star_stop (h : body.ends found = []) : (star body).ends found = [found] := by
  unfold ends
  cases found.place.after.length <;> simp [rounds, h]

theorem star_step (h : body.ends ⟨⟨last, c :: after⟩, groups⟩ = [⟨⟨some c, after⟩, groups⟩]) :
    (star body).ends ⟨⟨last, c :: after⟩, groups⟩ =
      (star body).ends ⟨⟨some c, after⟩, groups⟩ ++ [⟨⟨last, c :: after⟩, groups⟩] := by
  simp [ends, rounds, h]

end

/-- `[accepts]*` and then a pattern that such a character cannot begin. -/
theorem ends_skip {accepts : Char → Bool} {rest : Pattern}
    (hrest : ∀ last c after groups, accepts c = true → rest.ends ⟨⟨last, c :: after⟩, groups⟩ = [])
    (last : Option Char) (after : List Char) (groups : List (List Char)) :
    (seq (star (char accepts)) rest).ends ⟨⟨last, after⟩, groups⟩ =
      rest.ends ⟨Place.skip accepts last after, groups⟩ := by
  rw [ends_seq]
  induction after generalizing last with
  | nil =>
    rw [star_stop ends_char_nil]
    simp [Place.skip]
  | cons c after ih =>
    cases hc : accepts c with
    | false => simp [star_stop, Place.skip, hc]
    | true => simp [star_step, Place.skip, hc, ih, hrest last c after groups hc]

theorem ends_literal_nil {word : List Char} {rest : Pattern} {place : Place}
    (h : ¬ word <+: place.after) (groups : List (List Char)) :
    (literal word rest).ends ⟨place, groups⟩ = [] := by
  induction word generalizing place with
  | nil => exact absurd List.nil_prefix h
  | cons w word ih =>
    obtain ⟨last, _ | ⟨c, after⟩⟩ := place
    · rfl
    · by_cases hc : c = w
      · subst hc
        have hafter : ¬ word <+: after := fun hw => h (List.cons_prefix_cons.mpr ⟨rfl, hw⟩)
        have hnil : (literal word rest).ends ⟨⟨some c, after⟩, groups⟩ = [] := ih hafter
        simp [literal, hnil]
      · simp [literal, ends, hc]

theorem ends_literal (word : List Char) (rest : Pattern) (last : Option Char) (after : List Char)
    (groups : List (List Char)) :
    (literal word rest).ends ⟨⟨last, word ++ after⟩, groups⟩ =
      rest.ends ⟨⟨word.getLast?.or last, after⟩, groups⟩ := by
  induction word generalizing last with
  | nil => rfl
  | cons w word ih =>
    have hlast : ((w :: word).getLast?.or last) = word.getLast?.or (some w) := by
      cases word <;> simp [List.getLast?_cons]
    simp [literal, ends, ih, hlast]

end Pattern

-- ---------------------------------------------------------------------------
-- Runs
-- ---------------------------------------------------------------------------

/-- The first place from here on that is a stop, or the end of the text. -/
def Place.runTo (stop : Place → Bool) (last : Option Char) : List Char → Place
  | [] => ⟨last, []⟩
  | c :: after =>
    if stop ⟨last, c :: after⟩ then ⟨last, c :: after⟩ else runTo stop (some c) after

theorem Place.runTo_suffix {stop : Place → Bool} {last : Option Char} {text : List Char} :
    (Place.runTo stop last text).after <:+ text := by
  induction text generalizing last with
  | nil => exact List.suffix_rfl
  | cons c text ih =>
    unfold Place.runTo
    split
    · exact List.suffix_rfl
    · exact ih.trans (List.suffix_cons c text)

theorem Place.runTo_le {stop : Place → Bool} {last : Option Char} {text : List Char} :
    (Place.runTo stop last text).after.length ≤ text.length := Place.runTo_suffix.length_le

/-- Over the characters of a line, a run stops at its start or not at all. -/
theorem Place.runTo_line {stop : Place → Bool} {last : Option Char} {line rest : List Char} {t : Char}
    (hstop : ∀ c text, isTerminator c = false → stop ⟨some c, text⟩ = false)
    (hline : ∀ c ∈ line, isTerminator c = false) (h : stop ⟨last, line ++ t :: rest⟩ = false) :
    Place.runTo stop last (line ++ t :: rest) = Place.runTo stop (some t) rest := by
  induction line generalizing last with
  | nil => simp_all [Place.runTo]
  | cons c line ih =>
    obtain ⟨hc, hline⟩ := List.forall_mem_cons.mp hline
    have hnext := hstop c (line ++ t :: rest) hc
    rw [← ih hline hnext]
    simp_all [Place.runTo]

theorem Place.runTo_last {stop : Place → Bool} {last : Option Char} {line : List Char}
    (hstop : ∀ c text, isTerminator c = false → stop ⟨some c, text⟩ = false)
    (hline : ∀ c ∈ line, isTerminator c = false) (h : stop ⟨last, line⟩ = false) :
    (Place.runTo stop last line).after = [] := by
  induction line generalizing last with
  | nil => rfl
  | cons c line ih =>
    obtain ⟨hc, hline⟩ := List.forall_mem_cons.mp hline
    have hnext := ih hline (hstop c line hc)
    simp_all [Place.runTo]

/-- A run goes past a text that has no stop in it. -/
theorem Place.runTo_past {stop : Place → Bool} {last : Option Char} {text : List Char} (rest : List Char)
    (h : ∀ before after, text = before ++ after → after ≠ [] →
      stop ⟨before.getLast?.or last, after ++ rest⟩ = false) :
    (Place.runTo stop last (text ++ rest)).after.length ≤ rest.length := by
  induction text generalizing last with
  | nil => exact Place.runTo_le
  | cons c text ih =>
    have hstop := h [] (c :: text) rfl (List.cons_ne_nil c text)
    simp only [List.getLast?_nil, Option.none_or] at hstop
    rw [List.cons_append] at hstop ⊢
    rw [Place.runTo, if_neg (by simp [hstop])]
    refine ih fun before after htext hne => ?_
    have hnext := h (c :: before) after (by rw [htext, List.cons_append]) hne
    cases hlast : before.getLast? <;> simp_all [List.getLast?_cons]

/-- What is taken from a text goes at least as far as the stop. -/
theorem taken_past {stop : Place} {last : Option Char} {text rest : List Char}
    (h : stop.after.length ≤ rest.length) :
    taken ⟨last, text ++ rest⟩ stop = text ++ taken ⟨last, rest⟩ stop := by
  have hlength : (text ++ rest).length - stop.after.length =
      text.length + (rest.length - stop.after.length) := by
    rw [List.length_append]
    omega
  simp only [taken, hlength]
  rw [List.take_length_add_append]

/-- What is taken over the end of a line. -/
theorem taken_line {stop : Place} {last : Option Char} {rest : List Char} (line : List Char) (t : Char)
    (h : stop.after.length ≤ rest.length) :
    taken ⟨last, line ++ t :: rest⟩ stop = line ++ t :: taken ⟨some t, rest⟩ stop := by
  have hlength : (t :: rest).length - stop.after.length = rest.length - stop.after.length + 1 := by
    rw [List.length_cons]
    omega
  rw [taken_past (Nat.le_succ_of_le h), taken, taken]
  simp only [hlength, List.take_succ_cons]

theorem taken_self (place : Place) : taken place place = [] := by simp [taken]

/-- `(?:(?!body)[^])*` takes all there is before a place where the body begins. -/
theorem Pattern.head_run {body : Pattern} {stop : Place → Bool} {groups : List (List Char)}
    (hstop : ∀ place, (body.ends ⟨place, groups⟩).isEmpty = !stop place)
    (last : Option Char) (after : List Char) :
    ((star (seq (.unless body) (char fun _ => true))).ends ⟨⟨last, after⟩, groups⟩).head? =
      some ⟨Place.runTo stop last after, groups⟩ := by
  induction after generalizing last with
  | nil => simp [star_stop, Place.runTo]
  | cons c after ih =>
    cases h : stop ⟨last, c :: after⟩ with
    | true => simp [star_stop, hstop, h, Place.runTo]
    | false => simp [star_step, hstop, h, ih, Place.runTo, List.head?_append]

end Regex
