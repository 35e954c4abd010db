import TronUpgrades.Posix.Path

/-!
# Normal paths

What a path names, segment by segment: where no segment goes up, normalizing
only drops the empty ones and the dots. An absolute path that was normalized
once is left as it is.
-/

namespace Posix

-- ---------------------------------------------------------------------------
-- Segments
-- ---------------------------------------------------------------------------

/-- The segments that name something. -/
def named (path : Path) : List Path :=
  (path.splitOn slash).filter fun segment => !(segment = [] ∨ segment = ['.'])

/-- No segment goes up. -/
def Downward (path : Path) : Prop := ['.', '.'] ∉ path.splitOn slash

instance (path : Path) : Decidable (Downward path) :=
  inferInstanceAs (Decidable (['.', '.'] ∉ path.splitOn slash))

theorem splitOn_slash_append (path path' : Path) :
    (path ++ slash :: path').splitOn slash = path.splitOn slash ++ path'.splitOn slash :=
  List.splitOn_append_cons_self path path'

theorem named_append (path path' : Path) :
    named (path ++ slash :: path') = named path ++ named path' := by
  rw [named, splitOn_slash_append, List.filter_append]
  rfl

theorem downward_append {path path' : Path} :
    Downward (path ++ slash :: path') ↔ Downward path ∧ Downward path' := by
  simp [Downward, splitOn_slash_append]

theorem slash_not_mem {path segment : Path} (h : segment ∈ path.splitOn slash) :
    slash ∉ segment := by
  induction path generalizing segment with
  | nil =>
    cases List.mem_singleton.mp h
    exact List.not_mem_nil
  | cons c path ih =>
    rw [List.splitOn_cons_eq_if_modifyHead] at h
    obtain ⟨head, tail, hsplit⟩ := List.exists_cons_of_ne_nil (List.splitOn_ne_nil slash path)
    rw [hsplit] at h ih
    split at h
    · rcases List.mem_cons.mp h with rfl | h
      · exact List.not_mem_nil
      · exact ih h
    · rename_i hc
      rcases List.mem_cons.mp h with rfl | h
      · have hhead := ih List.mem_cons_self
        rw [List.mem_cons]
        rintro (rfl | hmem)
        · exact hc (beq_self_eq_true _)
        · exact hhead hmem
      · exact ih (List.mem_cons_of_mem _ h)

/-- Where a list is split more finely, each part is split on its own. -/
theorem splitOnP_flatMap {α : Type} {p q : α → Bool} (hpq : ∀ a, p a = true → q a = true)
    (l : List α) : l.splitOnP q = (l.splitOnP p).flatMap (·.splitOnP q) := by
  induction l with
  | nil => rfl
  | cons a l ih =>
    obtain ⟨head, tail, hsplit⟩ := List.exists_cons_of_ne_nil (List.splitOnP_ne_nil p l)
    rw [List.splitOnP_cons_eq_if_modifyHead (p := p), List.splitOnP_cons_eq_if_modifyHead, ih]
    by_cases hp : p a = true
    · simp [hp, hpq a hp]
    · rw [if_neg hp, hsplit]
      simp only [List.modifyHead_cons, List.flatMap_cons]
      rw [List.splitOnP_cons_eq_if_modifyHead a head]
      obtain ⟨first, rest, hhead⟩ := List.exists_cons_of_ne_nil (List.splitOnP_ne_nil q head)
      rw [hhead]
      split <;> simp

/-- What `normalizeString` makes of segments none of which goes up. -/
theorem foldl_pushSegment {above : Bool} {segments : List Path} (h : ['.', '.'] ∉ segments)
    (top : List Path) : segments.foldl (pushSegment above) top =
      (segments.filter fun segment => !(segment = [] ∨ segment = ['.'])).reverse ++ top := by
  induction segments generalizing top with
  | nil => rfl
  | cons segment segments ih =>
    rw [List.mem_cons, not_or] at h
    rw [List.foldl_cons, ih h.2, List.filter_cons]
    unfold pushSegment
    by_cases htrivial : segment = [] ∨ segment = ['.']
    · simp [htrivial]
    · simp [htrivial, Ne.symm h.1]

@[simp] theorem normalSegments_nil (above : Bool) : normalSegments [] above = [] := rfl

@[simp] theorem named_nil : named [] = [] := rfl

theorem normalSegments_append (path : Path) {path' : Path} (above : Bool) (h : Downward path') :
    normalSegments (path ++ slash :: path') above = normalSegments path above ++ named path' := by
  rw [normalSegments, splitOn_slash_append, List.foldl_append, foldl_pushSegment h]
  simp [normalSegments, named]

theorem normalSegments_of_downward {path : Path} (above : Bool) (h : Downward path) :
    normalSegments path above = named path := by
  rw [normalSegments, foldl_pushSegment h]
  simp [named]

-- ---------------------------------------------------------------------------
-- Absolute paths
-- ---------------------------------------------------------------------------

/-- A segment of a normal absolute path. -/
structure NormalSegment (segment : Path) : Prop where
  names : segment ≠ [] ∧ segment ≠ ['.']
  down : segment ≠ ['.', '.']
  single : slash ∉ segment

theorem pushSegment_normal {segments : List Path} {segment : Path} (hsingle : slash ∉ segment)
    (h : ∀ s ∈ segments, NormalSegment s) : ∀ s ∈ pushSegment false segments segment,
      NormalSegment s := by
  unfold pushSegment
  split
  · exact h
  · rename_i hnames
    split
    · split
      · split
        · exact h
        · exact fun s hs => h s (List.mem_cons_of_mem _ hs)
      · exact fun s hs => absurd hs List.not_mem_nil
    · rename_i hdown
      exact List.forall_mem_cons.mpr ⟨⟨not_or.mp hnames, hdown, hsingle⟩, h⟩

theorem normalSegments_normal (path : Path) : ∀ s ∈ normalSegments path false, NormalSegment s := by
  have hfold : ∀ (segments top : List Path), (∀ s ∈ segments, slash ∉ s) →
      (∀ s ∈ top, NormalSegment s) →
        ∀ s ∈ segments.foldl (pushSegment false) top, NormalSegment s := by
    intro segments
    induction segments with
    | nil => exact fun _ _ htop => htop
    | cons segment segments ih =>
      intro top hsingle htop
      obtain ⟨hsegment, hsingle⟩ := List.forall_mem_cons.mp hsingle
      exact ih _ hsingle (pushSegment_normal hsegment htop)
  intro s hs
  exact hfold _ [] (fun s hs => slash_not_mem hs) (fun s hs => absurd hs List.not_mem_nil) s
    (List.mem_reverse.mp hs)

/-- The absolute path of these segments, with a separator at the end or not. -/
def absolutePath (segments : List Path) (trailing : Bool) : Path :=
  slash :: ([slash].intercalate segments ++ if trailing && segments ≠ [] then [slash] else [])

theorem intercalate_eq_nil {segments : List Path} (h : ∀ s ∈ segments, NormalSegment s) :
    [slash].intercalate segments = [] ↔ segments = [] := by
  cases segments with
  | nil => simp
  | cons segment segments =>
    have hne := (h segment List.mem_cons_self).names.1
    cases segments with
    | nil => simp [hne]
    | cons => simp

theorem normalize_absolute {path : Path} (h : isAbsolute path = true) :
    normalize path = absolutePath (normalSegments path false) (path.getLast? == some slash) := by
  have hne : path ≠ [] := by
    rintro rfl
    cases h
  have hnil := intercalate_eq_nil (normalSegments_normal path)
  simp only [normalize, if_neg hne, h, Bool.not_true, normalizeString, hnil, if_true, absolutePath]
  by_cases hsegments : normalSegments path false = []
  · simp [hsegments]
  · simp only [hsegments, if_false]
    cases path.getLast? == some slash <;> simp [hsegments]

theorem resolveParts_absolute {cwd : Path} (h : isAbsolute cwd = true) (parts : List Path)
    (resolved : Path) : (resolveParts (parts ++ [cwd]) resolved).2 = true := by
  induction parts generalizing resolved with
  | nil =>
    have hne : cwd ≠ [] := by
      rintro rfl
      cases h
    simp [resolveParts, hne, h]
  | cons part parts ih =>
    rw [List.cons_append, resolveParts]
    split
    · exact ih resolved
    · split
      · rfl
      · exact ih _

/-- Seen from an absolute directory, every path resolves to a normal one. -/
theorem resolve_absolute {cwd : Path} (h : isAbsolute cwd = true) (parts : List Path) :
    ∃ path, resolve cwd parts = absolutePath (normalSegments path false) false := by
  refine ⟨(resolveParts (parts.reverse ++ [cwd]) []).1, ?_⟩
  simp [resolve, resolveParts_absolute h, absolutePath, normalizeString]

theorem normalSegments_absolutePath {segments : List Path} (h : ∀ s ∈ segments, NormalSegment s)
    (trailing : Bool) : normalSegments (absolutePath segments trailing) false = segments := by
  have hfilter : segments.filter (fun segment => !(segment = [] ∨ segment = ['.'])) = segments :=
    List.filter_eq_self.mpr fun s hs => by simpa using (h s hs).names
  have hdown : ['.', '.'] ∉ segments := fun hs => (h _ hs).down rfl
  by_cases hne : segments = []
  · subst hne
    cases trailing <;> rfl
  have hsplit : ([slash].intercalate segments).splitOn slash = segments :=
    List.splitOn_intercalate slash (fun s hs => (h s hs).single) hne
  have hdownward : Downward ([slash].intercalate segments) := by
    rwa [Downward, hsplit]
  have hnamed : named ([slash].intercalate segments) = segments := by
    rw [named, hsplit, hfilter]
  cases trailing with
  | false =>
    have := normalSegments_append [] false hdownward
    rw [hnamed] at this
    simpa [absolutePath] using this
  | true =>
    have hdownward' : Downward ([slash].intercalate segments ++ slash :: []) :=
      downward_append.mpr ⟨hdownward, by simp [Downward]⟩
    have := normalSegments_append [] false hdownward'
    rw [named_append, hnamed] at this
    simpa [absolutePath, hne] using this

theorem getLast?_intercalate {segments : List Path} (h : ∀ s ∈ segments, NormalSegment s)
    (hne : segments ≠ []) : ∃ c, ([slash].intercalate segments).getLast? = some c ∧ c ≠ slash := by
  induction segments with
  | nil => exact absurd rfl hne
  | cons segment rest ih =>
    obtain ⟨hsegment, hrest⟩ := List.forall_mem_cons.mp h
    cases rest with
    | nil =>
      refine ⟨segment.getLast hsegment.names.1, ?_, fun hc => ?_⟩
      · rw [List.intercalate_singleton, List.getLast?_eq_some_getLast hsegment.names.1]
      · exact hsegment.single (hc ▸ List.getLast_mem hsegment.names.1)
    | cons next rest =>
      obtain ⟨c, hlast, hc⟩ := ih hrest (List.cons_ne_nil _ _)
      exact ⟨c, by rw [List.intercalate_cons_cons, List.getLast?_append, hlast]; rfl, hc⟩

theorem getLast?_absolutePath {segments : List Path} (h : ∀ s ∈ segments, NormalSegment s)
    (hne : segments ≠ []) (trailing : Bool) :
    ((absolutePath segments trailing).getLast? == some slash) = trailing := by
  cases trailing with
  | true => simp [absolutePath, hne, List.getLast?_cons]
  | false =>
    obtain ⟨c, hlast, hc⟩ := getLast?_intercalate h hne
    simpa [absolutePath, List.getLast?_cons, hlast] using hc

theorem normalize_absolutePath {segments : List Path} (h : ∀ s ∈ segments, NormalSegment s)
    (trailing : Bool) : normalize (absolutePath segments trailing) = absolutePath segments trailing := by
  rw [normalize_absolute rfl, normalSegments_absolutePath h]
  by_cases hne : segments = []
  · simp [hne, absolutePath]
  · rw [getLast?_absolutePath h hne]

/-- Normalizing an absolute path once is enough. -/
theorem normalize_normalize {path : Path} (h : isAbsolute path = true) :
    isAbsolute (normalize path) = true ∧ normalize (normalize path) = normalize path := by
  rw [normalize_absolute h]
  exact ⟨rfl, normalize_absolutePath (normalSegments_normal path) _⟩

theorem normalSegments_normalize {path : Path} (h : isAbsolute path = true) :
    normalSegments (normalize path) false = normalSegments path false := by
  rw [normalize_absolute h, normalSegments_absolutePath (normalSegments_normal path)]

-- ---------------------------------------------------------------------------
-- Joined paths, and the directory of one
-- ---------------------------------------------------------------------------

theorem isAbsolute_append {path path' : Path} (h : path ≠ []) :
    isAbsolute (path ++ path') = isAbsolute path := by
  obtain ⟨c, rest, rfl⟩ := List.exists_cons_of_ne_nil h
  rfl

/-- A relative path joined to a directory: only what the directory names
counts. -/
theorem join_congr {directory directory' path : Path} (hpath : path ≠ [])
    (h : directory ≠ [] ∧ isAbsolute directory = false ∧ Downward directory)
    (h' : directory' ≠ [] ∧ isAbsolute directory' = false ∧ Downward directory')
    (hnamed : named directory = named directory') :
    join [directory, path] = join [directory', path] := by
  have hjoin : ∀ {directory : Path}, directory ≠ [] → isAbsolute directory = false →
      Downward directory → join [directory, path] =
        let normal := [slash].intercalate
          ((path.splitOn slash).foldl (pushSegment true) (named directory).reverse).reverse
        let trailingSeparator := path.getLast? == some slash
        if normal = [] then if trailingSeparator then ['.', slash] else ['.']
        else if trailingSeparator then normal ++ [slash] else normal := by
    intro directory hne habsolute hdown
    have hlast := List.getLast?_eq_some_getLast hpath
    have hsegments : normalSegments (directory ++ slash :: path) true =
        ((path.splitOn slash).foldl (pushSegment true) (named directory).reverse).reverse := by
      rw [normalSegments, splitOn_slash_append, List.foldl_append]
      have := normalSegments_of_downward true hdown
      rw [normalSegments, List.reverse_eq_iff] at this
      rw [this]
    have habsolute' : isAbsolute (directory ++ slash :: path) = false := by
      rw [isAbsolute_append hne, habsolute]
    simp [join, hne, hpath, normalize, habsolute', normalizeString, hsegments, List.getLast?_cons,
      hlast]
  rw [hjoin h.1 h.2.1 h.2.2, hjoin h'.1 h'.2.1 h'.2.2, hnamed]

theorem join_absolute {root : Path} (hroot : isAbsolute root = true) (middle path : Path) :
    ∃ below, join [root, middle, path] = normalize (root ++ below) ∧
      (middle ≠ [] → path ≠ [] → below = slash :: (middle ++ slash :: path)) := by
  have hne : root ≠ [] := by
    rintro rfl
    cases hroot
  by_cases hmiddle : middle = [] <;> by_cases hpath : path = []
  · exact ⟨[], by simp [join, hne, hmiddle, hpath], fun h => absurd hmiddle h⟩
  · exact ⟨slash :: path, by simp [join, hne, hmiddle, hpath], fun h => absurd hmiddle h⟩
  · exact ⟨slash :: middle, by simp [join, hne, hmiddle, hpath], fun _ h => absurd hpath h⟩
  · exact ⟨_, by simp [join, hne, hmiddle, hpath], fun _ _ => rfl⟩

theorem join_normal {root middle path : Path} (hroot : isAbsolute root = true) :
    isAbsolute (join [root, middle, path]) = true ∧
      normalize (join [root, middle, path]) = join [root, middle, path] := by
  have hne : root ≠ [] := by
    rintro rfl
    cases hroot
  obtain ⟨below, hjoin, -⟩ := join_absolute hroot middle path
  rw [hjoin]
  exact normalize_normalize (by rw [isAbsolute_append hne, hroot])

/-- Below an absolute directory, a path that does not go up names what it
names. -/
theorem normalSegments_join {root middle path : Path} (hroot : isAbsolute root = true)
    (hmiddle : middle ≠ []) (hpath : path ≠ []) (hdown : Downward middle ∧ Downward path) :
    normalSegments (join [root, middle, path]) false =
      normalSegments root false ++ (named middle ++ named path) := by
  have hne : root ≠ [] := by
    rintro rfl
    cases hroot
  obtain ⟨below, hjoin, hbelow⟩ := join_absolute hroot middle path
  rw [hjoin, normalSegments_normalize (by rw [isAbsolute_append hne, hroot]), hbelow hmiddle hpath,
    normalSegments_append _ false (downward_append.mpr hdown), named_append]

/-- From the last slash that is not at the end, a path is a directory and a
name in it. -/
theorem dirname_split {path above : Path} {c : Char}
    (h : (path.reverse.dropWhile (· = slash)).dropWhile (· ≠ slash) = c :: above) :
    ∃ name, path = above.reverse ++ slash :: name := by
  have hc : c = slash := by
    have := List.head?_dropWhile_not (fun c => decide (c ≠ slash))
      (path.reverse.dropWhile (· = slash))
    rw [h] at this
    simpa using this
  have hsuffix : c :: above <:+ path.reverse :=
    h ▸ (List.dropWhile_suffix _).trans (List.dropWhile_suffix _)
  obtain ⟨name, hname⟩ := hsuffix
  refine ⟨name.reverse, ?_⟩
  rw [← List.reverse_reverse path, ← hname, hc]
  simp

/-- The directory of a relative path is what the path begins with, or where it
starts from. -/
theorem dirname_cases {path : Path} (h : isAbsolute path = false) : dirname path = ['.'] ∨
    dirname path ≠ [] ∧ ∃ name, path = dirname path ++ slash :: name := by
  unfold dirname
  split
  · exact .inl rfl
  · rw [h]
    split
    · exact .inl rfl
    · rename_i hsplit
      obtain ⟨name, rfl⟩ := dirname_split hsplit
      cases h
    · rename_i above hone hsplit
      simp only [Bool.false_eq_true, false_and, if_false]
      refine .inr ⟨fun hnil => ?_, dirname_split hsplit⟩
      rw [List.reverse_eq_nil_iff] at hnil
      subst hnil
      exact hone rfl

/-- The directory of a path that does not go up is one that a path can be
joined to, and names no more. -/
theorem dirname_downward {path : Path} (h : isAbsolute path = false) (hdown : Downward path) :
    (dirname path ≠ [] ∧ isAbsolute (dirname path) = false ∧ Downward (dirname path)) ∧
      named (dirname path) <+: named path := by
  rcases dirname_cases h with hdot | ⟨hne, name, hname⟩
  · rw [hdot]
    exact ⟨⟨by simp, rfl, by decide⟩, List.nil_prefix⟩
  · have habsolute : isAbsolute (dirname path) = false := by
      rw [← isAbsolute_append hne, ← hname, h]
    rw [hname, downward_append] at hdown
    refine ⟨⟨hne, habsolute, hdown.1⟩, ?_⟩
    conv => rhs; rw [hname, named_append]
    exact List.prefix_append _ _

end Posix
