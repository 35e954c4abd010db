import Mathlib.Data.Finset.Card
import Mathlib.Data.Set.Basic
import Mathlib.Order.Bounds.Defs
import TronUpgrades.Keyed.OrderedMap

/-!
# A worklist over keyed references

A reference has a key, and what is read for it leads to further references. A
walk looks at each reference in turn, first come first served, and reads only
for the first of each key.
-/

namespace Keyed

variable {ρ κ β ε : Type}

structure Worklist (ρ κ β ε : Type) where
  key : ρ → Except ε κ
  read : ρ → Except ε (β × List ρ)

namespace Worklist

variable (w : Worklist ρ κ β ε)

/-- The keys of references looked at. -/
def keys (looked : List ρ) : List κ := looked.filterMap fun r => (w.key r).toOption

@[simp] theorem keys_nil : w.keys [] = [] := rfl

@[simp] theorem keys_append (l l' : List ρ) : w.keys (l ++ l') = w.keys l ++ w.keys l' :=
  List.filterMap_append

theorem keys_of_key {r : ρ} {k : κ} (hkey : w.key r = .ok k) : w.keys [r] = [k] := by
  simp [keys, hkey, Except.toOption]

variable [DecidableEq κ]

/-- Out of fuel, a walk has no answer. -/
def walk : Nat → List ρ → OrderedMap κ β → Option (Except ε (OrderedMap κ β))
  | _, [], m => some (.ok m)
  | 0, _ :: _, _ => none
  | fuel + 1, r :: pending, m =>
    match w.key r with
    | .error e => some (.error e)
    | .ok k =>
      if (m.get? k).isSome then walk fuel pending m
      else
        match w.read r with
        | .error e => some (.error e)
        | .ok (b, next) => walk fuel (pending ++ next) (m.upsert k fun _ => b)

-- ---------------------------------------------------------------------------
-- Breadth first
-- ---------------------------------------------------------------------------

/-- A reference that cannot be passed, where these keys were seen before. -/
inductive Offends (seen : List κ) (r : ρ) (e : ε) : Prop
  | key (key : w.key r = .error e)
  | read {k : κ} (key : w.key r = .ok k) (new : k ∉ seen) (read : w.read r = .error e)

/-- What a reference leads to: nothing, where its key was seen before. -/
def leads (seen : List κ) (r : ρ) : List ρ :=
  match w.key r, w.read r with
  | .ok k, .ok (_, next) => if k ∈ seen then [] else next
  | _, _ => []

/-- What references lead to, looked at in this order. -/
def discovered : List κ → List ρ → List ρ
  | _, [] => []
  | seen, r :: looked => w.leads seen r ++ discovered (seen ++ w.keys [r]) looked

/-- A line of references begins with the root and goes on with what those in
it lead to, in the order in which they stand: level after level. -/
def BreadthFirst (root : ρ) (looked pending : List ρ) : Prop :=
  looked ++ pending = root :: w.discovered [] looked

/-- Each could be passed when its turn came. -/
def Passed (looked : List ρ) : Prop :=
  ∀ before r after, looked = before ++ r :: after → ∀ e, ¬ w.Offends (w.keys before) r e

theorem discovered_append (seen : List κ) (looked : List ρ) (r : ρ) :
    w.discovered seen (looked ++ [r]) =
      w.discovered seen looked ++ w.leads (seen ++ w.keys looked) r := by
  induction looked generalizing seen with
  | nil => simp [discovered]
  | cons r' looked ih =>
    have hkeys : w.keys (r' :: looked) = w.keys [r'] ++ w.keys looked := w.keys_append [r'] looked
    simp [discovered, ih, hkeys]

-- ---------------------------------------------------------------------------
-- The states of a walk
-- ---------------------------------------------------------------------------

/-- What was looked at, what is still to be, and what is recorded. -/
inductive Reached (root : ρ) : List ρ → List ρ → OrderedMap κ β → Prop
  | start : Reached root [] [root] .empty
  | seen {looked pending : List ρ} {r : ρ} {k : κ} {m : OrderedMap κ β}
      (before : Reached root looked (r :: pending) m) (key : w.key r = .ok k)
      (old : (m.get? k).isSome = true) : Reached root (looked ++ [r]) pending m
  | read {looked pending next : List ρ} {r : ρ} {k : κ} {b : β} {m : OrderedMap κ β}
      (before : Reached root looked (r :: pending) m) (key : w.key r = .ok k)
      (new : m.get? k = none) (read : w.read r = .ok (b, next)) :
    Reached root (looked ++ [r]) (pending ++ next) (m.upsert k fun _ => b)

namespace Reached

variable {w} {root : ρ} {looked pending : List ρ} {m : OrderedMap κ β}

/-- The keys recorded are those of what was looked at. -/
theorem recorded (h : w.Reached root looked pending m) (k : κ) :
    (m.get? k).isSome = true ↔ k ∈ w.keys looked := by
  induction h with
  | start => simp [OrderedMap.get?, OrderedMap.empty]
  | @seen looked pending r k' m before key old ih =>
    rw [ih, keys_append, w.keys_of_key key, List.mem_append, List.mem_singleton]
    refine ⟨.inl, fun hk => hk.elim id ?_⟩
    rintro rfl
    exact ih.mp old
  | @read looked pending next r k' b m before key new read ih =>
    rw [keys_append, w.keys_of_key key, List.mem_append, List.mem_singleton]
    by_cases hk : k = k'
    · subst hk
      simp [OrderedMap.get?_upsert_self]
    · rw [OrderedMap.get?_upsert_of_ne _ _ hk, ih]
      simp [hk]

theorem new_iff (h : w.Reached root looked pending m) (k : κ) :
    m.get? k = none ↔ k ∉ w.keys looked := by
  rw [← h.recorded k]
  simp

theorem breadthFirst (h : w.Reached root looked pending m) :
    w.BreadthFirst root looked pending := by
  unfold BreadthFirst
  induction h with
  | start => simp [discovered]
  | @seen looked pending r k m before key old ih =>
    have hleads : w.leads (w.keys looked) r = [] := by
      unfold leads
      rw [key]
      split
      · rename_i k' _ _ hk _
        cases hk
        exact if_pos ((before.recorded k).mp old)
      · rfl
    rw [w.discovered_append, List.nil_append, hleads, List.append_nil, ← ih]
    simp
  | @read looked pending next r k b m before key new read ih =>
    have hleads : w.leads (w.keys looked) r = next := by
      simp [leads, key, read, (before.new_iff k).mp new]
    rw [w.discovered_append, List.nil_append, hleads, ← List.cons_append, ← ih]
    simp

theorem passed (h : w.Reached root looked pending m) : w.Passed looked := by
  -- A split of the longer line is one of the shorter, or at the newcomer.
  have hextend : ∀ {looked : List ρ} {r : ρ}, w.Passed looked →
      (∀ e, ¬ w.Offends (w.keys looked) r e) → w.Passed (looked ++ [r]) := by
    intro looked r hpassed hr before r' after hsplit
    rcases List.eq_nil_or_concat after with rfl | ⟨after, r'', rfl⟩
    · obtain ⟨rfl, hrr⟩ := List.append_inj' hsplit rfl
      cases hrr
      exact hr
    · have hsplit : looked ++ [r] = (before ++ r' :: after) ++ [r''] := by simpa using hsplit
      exact hpassed before r' after (List.append_inj' hsplit rfl).1
  induction h with
  | start =>
    intro before r after hsplit
    simp at hsplit
  | @seen looked pending r k m before key old ih =>
    refine hextend ih fun e hoffends => ?_
    cases hoffends with
    | key hkey => simp [key] at hkey
    | read hkey new hread =>
      cases key.symm.trans hkey
      exact new ((before.recorded _).mp old)
  | @read looked pending next r k b m before key new read ih =>
    refine hextend ih fun e hoffends => ?_
    cases hoffends with
    | key hkey => simp [key] at hkey
    | read hkey new hread => simp [read] at hread

/-- The reference a key was read for. -/
structure Origin (w : Worklist ρ κ β ε) (looked line : List ρ) (k : κ) (b : β) (r : ρ) : Prop where
  mem : r ∈ looked
  key : w.key r = .ok k
  read : ∃ next, w.read r = .ok (b, next) ∧ ∀ n ∈ next, n ∈ line

/-- A set that has the root's key, and with a recorded key those of what its
origin leads to. -/
structure Closed (w : Worklist ρ κ β ε) (root : ρ) (m : OrderedMap κ β) (origin : κ → ρ)
    (S : Set κ) : Prop where
  root : ∀ k, w.key root = .ok k → k ∈ S
  next : ∀ k ∈ S, (m.get? k).isSome = true → ∀ b next, w.read (origin k) = .ok (b, next) →
    ∀ n ∈ next, ∀ k', w.key n = .ok k' → k' ∈ S

/-- Every recorded key has an origin, and a closed set has the key of
everything in the line. -/
theorem origins (h : w.Reached root looked pending m) : ∃ origin : κ → ρ,
    (∀ k b, m.get? k = some b → Origin w looked (looked ++ pending) k b (origin k)) ∧
      ∀ S, Closed w root m origin S → ∀ r ∈ looked ++ pending, ∀ k, w.key r = .ok k → k ∈ S := by
  induction h with
  | start =>
    refine ⟨fun _ => root, fun k b hb => by simp [OrderedMap.get?, OrderedMap.empty] at hb, ?_⟩
    intro S hS r hr k hk
    cases List.mem_singleton.mp hr
    exact hS.root k hk
  | @seen looked pending r k m before key old ih =>
    obtain ⟨origin, horigin, hclosed⟩ := ih
    have hline : looked ++ [r] ++ pending = looked ++ r :: pending := by simp
    rw [hline]
    exact ⟨origin, fun k' b hb =>
      ⟨List.mem_append_left _ (horigin k' b hb).mem, (horigin k' b hb).key, (horigin k' b hb).read⟩,
      hclosed⟩
  | @read looked pending next r k b m before key new read ih =>
    obtain ⟨origin, horigin, hclosed⟩ := ih
    have hline : looked ++ [r] ++ (pending ++ next) = (looked ++ r :: pending) ++ next := by simp
    rw [hline]
    refine ⟨Function.update origin k r, fun k' b' hb' => ?_, fun S hS => ?_⟩
    · by_cases hk : k' = k
      · subst hk
        rw [OrderedMap.get?_upsert_self] at hb'
        cases hb'
        rw [Function.update_self]
        exact ⟨by simp, key, next, read, fun n hn => List.mem_append_right _ hn⟩
      · rw [OrderedMap.get?_upsert_of_ne _ _ hk] at hb'
        rw [Function.update_of_ne hk]
        obtain ⟨hmem, hkey, next', hread, hnext'⟩ := horigin k' b' hb'
        exact ⟨List.mem_append_left _ hmem, hkey, next', hread,
          fun n hn => List.mem_append_left _ (hnext' n hn)⟩
    · -- What was recorded before has the origin it had before.
      have hbefore : Closed w root m origin S := by
        refine ⟨hS.root, fun k' hk' hsome => ?_⟩
        have hk : k' ≠ k := by
          rintro rfl
          simp [new] at hsome
        have := hS.next k' hk' (by rwa [OrderedMap.get?_upsert_of_ne _ _ hk])
        rwa [Function.update_of_ne hk] at this
      intro n hn k' hk'
      rcases List.mem_append.mp hn with hn | hn
      · exact hclosed S hbefore n hn k' hk'
      · have hkS : k ∈ S := hclosed S hbefore r (by simp) k key
        refine hS.next k hkS ?_ b next ?_ n hn k' hk'
        · rw [OrderedMap.get?_upsert_self]
          rfl
        · rwa [Function.update_self]

/-- With nothing left to look at, what is recorded is the least closed set. -/
theorem least (h : w.Reached root looked [] m) : ∃ origin : κ → ρ,
    (∀ k b, m.get? k = some b → w.key (origin k) = .ok k ∧
      ∃ next, w.read (origin k) = .ok (b, next) ∧ ∀ n ∈ next, ∃ k', w.key n = .ok k') ∧
      IsLeast {S | Closed w root m origin S} {k | (m.get? k).isSome = true} := by
  obtain ⟨origin, horigin, hclosed⟩ := h.origins
  rw [List.append_nil] at horigin hclosed
  have hmem : ∀ r ∈ looked, ∀ k, w.key r = .ok k → (m.get? k).isSome = true := by
    intro r hr k hk
    rw [h.recorded, keys, List.mem_filterMap]
    exact ⟨r, hr, by rw [hk]; rfl⟩
  have hroot : root ∈ looked := by
    have := h.breadthFirst
    rw [BreadthFirst, List.append_nil] at this
    rw [this]
    exact List.mem_cons_self
  refine ⟨origin, fun k b hb => ?_, ⟨hmem root hroot, ?_⟩, fun S hS k hk => ?_⟩
  · obtain ⟨-, hkey, next, hread, hnext⟩ := horigin k b hb
    refine ⟨hkey, next, hread, fun n hn => ?_⟩
    obtain ⟨before, after, hsplit⟩ := List.append_of_mem (hnext n hn)
    cases hkeyn : w.key n with
    | ok k' => exact ⟨k', rfl⟩
    | error e => exact absurd (.key hkeyn) (h.passed before n after hsplit e)
  · intro k _ hk b next hread n hn k' hk'
    obtain ⟨b', hb'⟩ := Option.isSome_iff_exists.mp hk
    obtain ⟨-, -, next', hread', hnext'⟩ := horigin k b' hb'
    cases hread.symm.trans hread'
    exact hmem n (hnext' n hn) k' hk'
  · obtain ⟨b, hb⟩ := Option.isSome_iff_exists.mp hk
    exact hclosed S hS (origin k) (horigin k b hb).mem k (horigin k b hb).key

end Reached

-- ---------------------------------------------------------------------------
-- A whole walk
-- ---------------------------------------------------------------------------

variable {w} {root : ρ} {looked pending : List ρ} {m : OrderedMap κ β}

/-- A walk ends with nothing left to look at, or at the first in the line that
cannot be passed. -/
theorem walk_reached {fuel : Nat} {result : Except ε (OrderedMap κ β)}
    (h : w.Reached root looked pending m) (hwalk : w.walk fuel pending m = some result) :
    (∃ m' looked', result = .ok m' ∧ w.Reached root looked' [] m') ∨
      ∃ e looked' r pending' m', result = .error e ∧ w.Reached root looked' (r :: pending') m' ∧
        w.Offends (w.keys looked') r e := by
  induction fuel generalizing looked pending m with
  | zero =>
    cases pending with
    | nil =>
      cases hwalk
      exact .inl ⟨m, looked, rfl, h⟩
    | cons r pending => cases hwalk
  | succ fuel ih =>
    cases pending with
    | nil =>
      cases hwalk
      exact .inl ⟨m, looked, rfl, h⟩
    | cons r pending =>
      rw [walk] at hwalk
      split at hwalk
      · rename_i e hkey
        cases hwalk
        exact .inr ⟨e, looked, r, pending, m, rfl, h, .key hkey⟩
      · rename_i k hkey
        split at hwalk
        · rename_i old
          exact ih (h.seen hkey old) hwalk
        · rename_i new
          have new : m.get? k = none := by simpa using new
          split at hwalk
          · rename_i e hread
            cases hwalk
            exact .inr ⟨e, looked, r, pending, m, rfl, h, .read hkey ((h.new_iff k).mp new) hread⟩
          · rename_i b next hread
            exact ih (h.read hkey new hread) hwalk

/-- More fuel changes no answer. -/
theorem walk_more {fuel : Nat} {result : Except ε (OrderedMap κ β)}
    (h : w.walk fuel pending m = some result) (more : Nat) :
    w.walk (fuel + more) pending m = some result := by
  induction fuel generalizing pending m with
  | zero =>
    cases pending with
    | nil =>
      rw [← h]
      cases 0 + more <;> rfl
    | cons r pending => cases h
  | succ fuel ih =>
    cases pending with
    | nil =>
      rw [← h]
      cases fuel + 1 + more <;> rfl
    | cons r pending =>
      rw [Nat.add_right_comm, walk]
      rw [walk] at h
      split at h
      · assumption
      · split at h
        · rw [if_pos ‹_›]
          exact ih h
        · rw [if_neg ‹_›]
          split at h
          · assumption
          · exact ih h

/-- Where only so many keys can be read for, a walk ends: each reading uses up
one of them, and between two of them the line gets shorter. -/
theorem walk_ends {U : ρ → Prop} {K : Finset κ}
    (next : ∀ r b next, U r → w.read r = .ok (b, next) → ∀ n ∈ next, U n)
    (keys : ∀ r k b next, U r → w.key r = .ok k → w.read r = .ok (b, next) → k ∈ K)
    (hpending : ∀ r ∈ pending, U r) : ∃ fuel result, w.walk fuel pending m = some result := by
  generalize hleft : (K.filter fun k => m.get? k = none).card = left
  induction left using Nat.strong_induction_on generalizing pending m with
  | _ left ihleft =>
    induction pending with
    | nil => exact ⟨0, _, rfl⟩
    | cons r pending ih =>
      obtain ⟨hr, hpending⟩ := List.forall_mem_cons.mp hpending
      cases hkey : w.key r with
      | error e => exact ⟨1, .error e, by simp [walk, hkey]⟩
      | ok k =>
        by_cases old : (m.get? k).isSome = true
        · obtain ⟨fuel, result, h⟩ := ih hpending
          exact ⟨fuel + 1, result, by simp [walk, hkey, old, h]⟩
        · have new : m.get? k = none := by simpa using old
          cases hread : w.read r with
          | error e => exact ⟨1, .error e, by simp [walk, hkey, new, hread]⟩
          | ok found =>
            obtain ⟨b, ns⟩ := found
            have hfewer : (K.filter fun k' => (m.upsert k fun _ => b).get? k' = none).card < left := by
              rw [← hleft]
              refine Finset.card_lt_card ((Finset.ssubset_iff_of_subset fun k' hk' => ?_).mpr
                ⟨k, Finset.mem_filter.mpr ⟨keys r k b ns hr hkey hread, new⟩, fun hk => ?_⟩)
              · rw [Finset.mem_filter] at hk' ⊢
                by_cases hkk : k' = k
                · subst hkk
                  exact ⟨hk'.1, new⟩
                · rw [OrderedMap.get?_upsert_of_ne _ _ hkk] at hk'
                  exact hk'
              · rw [Finset.mem_filter, OrderedMap.get?_upsert_self] at hk
                cases hk.2
            have hall : ∀ n ∈ pending ++ ns, U n := by
              intro n hn
              rcases List.mem_append.mp hn with hn | hn
              · exact hpending n hn
              · exact next r b ns hr hread n hn
            obtain ⟨fuel, result, h⟩ := ihleft _ hfewer hall rfl
            exact ⟨fuel + 1, result, by simp [walk, hkey, new, hread, h]⟩

end Worklist

end Keyed
