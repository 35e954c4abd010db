import TronUpgrades.Posix.Normal

/-!
# Below a directory

A relative path, normalized, is so many parents and then names. Seen from a
directory the parents take that many segments off its end, and the names are
put there instead.
-/

namespace Posix

def parent : Path := ['.', '.']

/-- How far up a relative path goes, all in all. -/
def ups (path : Path) : Nat := ((normalSegments path true).takeWhile (· = parent)).length

/-- What it names from there. -/
def down (path : Path) : List Path := (normalSegments path true).dropWhile (· = parent)

/-- The one path has something after the segments of the other. -/
def StrictlyBelow (directory path : Path) : Prop :=
  ∃ below ≠ [], normalSegments path false = normalSegments directory false ++ below

-- ---------------------------------------------------------------------------
-- Two stacks
-- ---------------------------------------------------------------------------

/-- What is on the stack from nothing, above the root, and from a base below it. -/
def Alongside (base relative absolute : List Path) : Prop :=
  ∃ names up, parent ∉ names ∧ relative = names ++ List.replicate up parent ∧
    absolute = names ++ base.drop up

section
variable {base relative absolute : List Path}

theorem pushSegment_parent_above (up : Nat) : pushSegment true (List.replicate up parent) parent =
    List.replicate (up + 1) parent := by
  cases up with
  | zero => rfl
  | succ up => simp [pushSegment, List.replicate_succ, parent]

theorem pushSegment_parent_base (hbase : parent ∉ base) (up : Nat) :
    pushSegment false (base.drop up) parent = base.drop (up + 1) := by
  cases hdrop : base.drop up with
  | nil =>
    have hnext : base.drop (up + 1) = [] :=
      List.drop_eq_nil_of_le (Nat.le_succ_of_le (List.drop_eq_nil_iff.mp hdrop))
    rw [hnext]
    rfl
  | cons top rest =>
    have htop : top ≠ parent := fun heq =>
      hbase (heq ▸ List.mem_of_mem_drop (hdrop ▸ List.mem_cons_self))
    have hnext : base.drop (up + 1) = rest := by
      rw [← List.drop_drop, hdrop]
      rfl
    rw [hnext]
    simp [pushSegment, parent, show top ≠ ['.', '.'] from htop]

theorem pushSegment_parent_names {top : Path} (htop : top ≠ parent) (above : Bool)
    (rest : List Path) : pushSegment above (top :: rest) parent = rest := by
  simp [pushSegment, parent, show top ≠ ['.', '.'] from htop]

/-- Where nothing is named yet, one more parent; else the last name goes. -/
theorem Alongside.step (hbase : parent ∉ base) (h : Alongside base relative absolute) (segment : Path) :
    Alongside base (pushSegment true relative segment) (pushSegment false absolute segment) := by
  obtain ⟨names, up, hnames, rfl, rfl⟩ := h
  by_cases htrivial : segment = [] ∨ segment = ['.']
  · have hsame : ∀ above stack, pushSegment above stack segment = stack :=
      fun above stack => by simp [pushSegment, htrivial]
    rw [hsame, hsame]
    exact ⟨names, up, hnames, rfl, rfl⟩
  by_cases hparent : segment = parent
  · subst hparent
    cases names with
    | nil =>
      refine ⟨[], up + 1, hnames, ?_, ?_⟩
      · exact pushSegment_parent_above up
      · exact pushSegment_parent_base hbase up
    | cons top names =>
      rw [List.mem_cons, not_or] at hnames
      rw [List.cons_append, List.cons_append, pushSegment_parent_names (Ne.symm hnames.1),
        pushSegment_parent_names (Ne.symm hnames.1)]
      exact ⟨names, up, hnames.2, rfl, rfl⟩
  · have hpushed : ∀ above stack, pushSegment above stack segment = segment :: stack :=
      fun above stack => by simp [pushSegment, htrivial, show segment ≠ ['.', '.'] from hparent]
    rw [hpushed, hpushed]
    refine ⟨segment :: names, up, ?_, rfl, rfl⟩
    rw [List.mem_cons, not_or]
    exact ⟨Ne.symm hparent, hnames⟩

theorem Alongside.foldl (hbase : parent ∉ base) (h : Alongside base relative absolute)
    (segments : List Path) : Alongside base (segments.foldl (pushSegment true) relative)
      (segments.foldl (pushSegment false) absolute) := by
  induction segments generalizing relative absolute with
  | nil => exact h
  | cons segment segments ih => exact ih (h.step hbase segment)

end

-- ---------------------------------------------------------------------------
-- Joined to a directory
-- ---------------------------------------------------------------------------

section
variable {directory path root : Path}

theorem takeWhile_parents {names : List Path} (hnames : parent ∉ names) (up : Nat) :
    (List.replicate up parent ++ names).takeWhile (· = parent) = List.replicate up parent ∧
      (List.replicate up parent ++ names).dropWhile (· = parent) = names := by
  induction up with
  | zero =>
    cases names with
    | nil => exact ⟨rfl, rfl⟩
    | cons name names =>
      have hname : name ≠ parent := fun heq => hnames (heq ▸ List.mem_cons_self)
      simp [hname]
  | succ up ih => simpa [List.replicate_succ] using ih

theorem normalSegments_parents {names : List Path} {up : Nat} (hnames : parent ∉ names)
    (h : (path.splitOn slash).foldl (pushSegment true) [] = names ++ List.replicate up parent) :
    ups path = up ∧ down path = names.reverse := by
  have hsegments : normalSegments path true = List.replicate up parent ++ names.reverse := by
    rw [normalSegments, h, List.reverse_append, List.reverse_replicate]
  have hnames' : parent ∉ names.reverse := fun hmem => hnames (List.mem_reverse.mp hmem)
  obtain ⟨htake, hdrop⟩ := takeWhile_parents hnames' up
  rw [ups, down, hsegments, htake, hdrop]
  exact ⟨List.length_replicate, rfl⟩

/-- The parents come off the end of the directory. -/
theorem normalSegments_relative (directory path : Path) :
    normalSegments (directory ++ slash :: path) false =
      (normalSegments directory false).take ((normalSegments directory false).length - ups path) ++
        down path := by
  let base := (directory.splitOn slash).foldl (pushSegment false) []
  have hbase : parent ∉ base := fun hmem =>
    (normalSegments_normal directory _ (List.mem_reverse.mpr hmem)).down rfl
  have hstart : Alongside base [] base := ⟨[], 0, List.not_mem_nil, rfl, rfl⟩
  obtain ⟨names, up, hnames, hrelative, habsolute⟩ := hstart.foldl hbase (path.splitOn slash)
  obtain ⟨hups, hdown⟩ := normalSegments_parents hnames hrelative
  have hdirectory : normalSegments directory false = base.reverse := rfl
  rw [hdirectory, List.length_reverse, hups, hdown, normalSegments, splitOn_slash_append,
    List.foldl_append, habsolute, List.reverse_append, List.reverse_drop]

/-- Joined to an absolute directory, a path is below it where its names put back
what its parents have taken off, and go on. -/
theorem strictlyBelow_relative : StrictlyBelow directory (directory ++ slash :: path) ↔
    ∃ below ≠ [], down path = (normalSegments directory false).drop
      ((normalSegments directory false).length - ups path) ++ below := by
  rw [StrictlyBelow, normalSegments_relative]
  have hcut := fun below => List.append_assoc
    ((normalSegments directory false).take ((normalSegments directory false).length - ups path))
    ((normalSegments directory false).drop ((normalSegments directory false).length - ups path)) below
  simp only [List.take_append_drop] at hcut
  simp only [hcut, List.append_cancel_left_eq]

theorem strictlyBelow_congr {directory' path' : Path}
    (hdirectory : normalSegments directory false = normalSegments directory' false)
    (hpath : normalSegments path false = normalSegments path' false) :
    StrictlyBelow directory path ↔ StrictlyBelow directory' path' := by
  rw [StrictlyBelow, StrictlyBelow, hdirectory, hpath]

theorem normalize_relative (hne : path ≠ []) (hrelative : isAbsolute path = false) :
    normalize path = (if normalizeString path true = [] then ['.'] else normalizeString path true) ++
      if path.getLast? == some slash then [slash] else [] := by
  simp only [normalize, hne, hrelative, if_false, Bool.not_false, Bool.false_eq_true]
  split <;> split <;> simp

/-- A path that goes up is normalized to one that begins with a parent. -/
theorem normalize_up {rest : List Path} (hne : path ≠ []) (hrelative : isAbsolute path = false)
    (hsegments : normalSegments path true = parent :: rest) :
    (normalize path == parent || "../".toList.isPrefixOf (normalize path)) = true := by
  have hup : "../".toList = ['.', '.', slash] := rfl
  rw [normalize_relative hne hrelative, normalizeString, hsegments, hup]
  cases rest with
  | nil => by_cases hlast : path.getLast? == some slash <;> simp [parent, hlast]
  | cons next rest => simp [parent, List.intercalate_cons_cons]

end

end Posix
