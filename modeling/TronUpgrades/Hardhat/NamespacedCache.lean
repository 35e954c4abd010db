import TronUpgrades.Hardhat.Namespaced

/-!
# The namespaced cache is transparent

Calls of `getNamespacedOutput` from any number of processes, interleaved
operation by operation over one disk, each process with its own memory.
`getNamespacedOutput_transparent`: where a compilation depends on the
build-info's id alone, every call ends as a recompilation would under the
setting of its own process, whatever earlier versions and torn writes have left
on disk, and no process announces a build-info twice.
-/

namespace TronUpgrades.Hardhat.Namespaced

open Effects Record

-- ---------------------------------------------------------------------------
-- Recomputing
-- ---------------------------------------------------------------------------

/-- What Hardhat's compiler tasks make of an input. -/
abbrev Solc := (id : String) → (input : Json) → (solcVersion : String) → Except Failure Json

section
variable (core : NamespacedCore) (solc : Solc)

def computedEntry (buildInfo : BuildInfo) : Except Failure NamespacedCacheEntry := do
  let supported ← core.isNamespaceSupported buildInfo.solcVersion
  if !supported then return .unsupported
  else do
    let input ← core.makeNamespacedInput buildInfo.input buildInfo.output buildInfo.solcVersion
    let sanitized ← core.trySanitizeNatSpec input buildInfo.solcVersion
    let output ← solc buildInfo.id sanitized buildInfo.solcVersion
    entryOfOutput output

/-- What a setting makes of an entry. -/
def severity (hre : HardhatRuntimeEnvironment) (buildInfo : BuildInfo) :
    NamespacedCacheEntry → Except NamespacedFailure (Option Json)
  | .output value => .ok (some value)
  | .unsupported => .ok none
  | .compileFailed errorLines =>
    match hre.namespacedCompileErrors.getD .error with
    | .error =>
      .error (.namespacedCompileError buildInfo.id (compileFailedMessage buildInfo.id errorLines))
    | .warn | .ignore => .ok none

/-- The compilation done anew, under the current setting. -/
def recomputed (hre : HardhatRuntimeEnvironment) (buildInfo : BuildInfo) :
    Except NamespacedFailure (Option Json) := do
  severity hre buildInfo (← foreign (computedEntry core solc buildInfo))

end

-- ---------------------------------------------------------------------------
-- Memories and a disk
-- ---------------------------------------------------------------------------

variable {ρ ι : Type}

structure CacheState (ρ : Type) where
  files : CachePath → Option FileContent
  memory : ρ → String → Option NamespacedCacheEntry
  /-- `warnedFallbackIds` -/
  warned : ρ → List String
  /-- The calls of the warning sink. -/
  announced : List (ρ × String)

/-- Before any process has made a call. -/
def CacheState.start (files : CachePath → Option FileContent) : CacheState ρ where
  files := files
  memory _ _ := none
  warned _ := []
  announced := []

section
variable [DecidableEq ρ]

def CacheState.warnNamespacedFallback (s : CacheState ρ) (p : ρ) (id : String) : CacheState ρ :=
  if id ∈ s.warned p then s
  else { s with
    warned := Function.update s.warned p (id :: s.warned p)
    announced := (p, id) :: s.announced }

def CacheState.remember (s : CacheState ρ) (p : ρ) (id : String) (entry : NamespacedCacheEntry) :
    CacheState ρ :=
  { s with memory := Function.update s.memory p (Function.update (s.memory p) id (some entry)) }

def CacheState.put (s : CacheState ρ) (path : CachePath) (content : Option FileContent) :
    CacheState ρ :=
  { s with files := Function.update s.files path content }

/-- One operation of process `p`. A read, a directory or a write may be refused,
and a write that is may leave a torn file. -/
inductive CacheStep (solc : Solc) (p : ρ) :
    CacheState ρ → (op : CacheOp) → Except NamespacedFailure op.Reply → CacheState ρ → Prop
  | memoryGet {s id} : CacheStep solc p s (.memoryGet id) (.ok (s.memory p id)) s
  | memorySet {s id entry} :
      CacheStep solc p s (.memorySet id entry) (.ok ()) (s.remember p id entry)
  | readFile {s path value} : s.files path = some (.json value) →
      CacheStep solc p s (.readFile path) (.ok value) s
  | unread {s path e} : CacheStep solc p s (.readFile path) (.error e) s
  | mkdir {s path r} : CacheStep solc p s (.mkdir path) r s
  | writeFile {s path contents} :
      CacheStep solc p s (.writeFile path contents) (.ok ()) (s.put path (some (.json contents)))
  | unwritten {s path contents e} : CacheStep solc p s (.writeFile path contents) (.error e) s
  | torn {s path contents e} :
      CacheStep solc p s (.writeFile path contents) (.error e) (s.put path (some .notJson))
  | compileNamespaced {s id input solcVersion} :
      CacheStep solc p s (.compileNamespaced id input solcVersion)
        (foreign (solc id input solcVersion)) s
  | warnNamespacedFallback {s id detailLines} :
      CacheStep solc p s (.warnNamespacedFallback id detailLines) (.ok ())
        (s.warnNamespacedFallback p id)

end

/-- What the plugin's versions may leave at a build-info's path. -/
inductive Admissible (compiled : String → Except Failure NamespacedCacheEntry) (id : String) :
    Option FileContent → Prop
  | missing : Admissible compiled id none
  | unreadable : Admissible compiled id (some .unreadableFile)
  /-- Truncated, or otherwise malformed. -/
  | notJson : Admissible compiled id (some .notJson)
  | legacyValue {value} : (∀ fields, value ≠ .obj fields) →
      Admissible compiled id (some (.json value))
  | legacyOutput {fields} : ofCacheSchema fields = false →
      Admissible compiled id (some (.json (.obj fields)))
  | unknownKind {fields} : (∀ kind, Json.get? fields "kind" = some (.str kind) →
      kind ≠ "output" ∧ kind ≠ "unsupported" ∧ kind ≠ "compile-failed") →
      Admissible compiled id (some (.json (.obj fields)))
  | written {entry} : compiled id = .ok entry →
      Admissible compiled id (some (.json entry.stringified))

/-- Between two operations any file may be replaced by such a one. -/
def weather (compiled : String → Except Failure NamespacedCacheEntry) (s t : CacheState ρ) : Prop :=
  t = { s with files := t.files } ∧
    ∀ path, t.files path = s.files path ∨ Admissible compiled path.id (t.files path)

def cacheWorld [DecidableEq ρ] (solc : Solc)
    (compiled : String → Except Failure NamespacedCacheEntry) (p : ρ) :
    World cacheEffects NamespacedFailure (CacheState ρ) :=
  World.interfered ⟨CacheStep solc p⟩ (weather compiled)

-- ---------------------------------------------------------------------------
-- Sound entries
-- ---------------------------------------------------------------------------

section
variable {compiled : String → Except Failure NamespacedCacheEntry} {id : String}

/-- Used alike, under every setting. -/
def Alike (a b : NamespacedCacheEntry) : Prop :=
  ∀ hre buildInfo, severity hre buildInfo a = severity hre buildInfo b

/-- As good as the compiled entry. -/
def SoundFor (compiled : String → Except Failure NamespacedCacheEntry) (id : String)
    (entry : NamespacedCacheEntry) : Prop :=
  ∃ entry', compiled id = .ok entry' ∧ Alike entry entry'

theorem SoundFor.of_compiled {entry : NamespacedCacheEntry} (h : compiled id = .ok entry) :
    SoundFor compiled id entry :=
  ⟨entry, h, fun _ _ => rfl⟩

@[simp] theorem ofCacheSchema_cons {fields : List (String × Json)}
    (h : ofCacheSchema fields = false) : cacheEntryOf (.obj fields) = none := by
  simp [cacheEntryOf, h]

theorem joinLines_stringified (lines : List (Option Json)) :
    joinLines ((lines.map (·.getD .null)).map some) = joinLines lines := by
  unfold joinLines
  rw [List.map_map, List.map_map]
  congr 1
  apply List.map_congr_left
  rintro (_ | line) _
  · simp [joined]
  · rfl

theorem compileFailedMessage_stringified (buildInfoId : String) (lines : List (Option Json)) :
    compileFailedMessage buildInfoId ((lines.map (·.getD .null)).map some) =
      compileFailedMessage buildInfoId lines := by
  unfold compileFailedMessage
  rw [joinLines_stringified, List.length_map, List.length_map]

theorem cacheEntryOf_unsupported :
    cacheEntryOf NamespacedCacheEntry.unsupported.stringified = some .unsupported := by
  simp [NamespacedCacheEntry.stringified, cacheEntryOf, ofCacheSchema, Json.get?]

theorem cacheEntryOf_compileFailed (lines : List (Option Json)) :
    cacheEntryOf (NamespacedCacheEntry.compileFailed lines).stringified =
      some (.compileFailed ((lines.map (·.getD .null)).map some)) := by
  simp [NamespacedCacheEntry.stringified, cacheEntryOf, ofCacheSchema, Json.get?]

/-- The round trip through the disk: what is accepted back is used as what was
written. -/
theorem cacheEntryOf_stringified {entry read : NamespacedCacheEntry}
    (h : cacheEntryOf entry.stringified = some read) : Alike read entry := by
  cases entry with
  | output value =>
    have hread : read = .output value := by
      cases value <;>
        simp_all [NamespacedCacheEntry.stringified, cacheEntryOf, ofCacheSchema, Json.get?]
    subst hread
    exact fun _ _ => rfl
  | unsupported =>
    rw [cacheEntryOf_unsupported] at h
    obtain rfl := Option.some.inj h
    exact fun _ _ => rfl
  | compileFailed lines =>
    rw [cacheEntryOf_compileFailed] at h
    obtain rfl := Option.some.inj h
    intro hre buildInfo
    simp only [severity, compileFailedMessage_stringified]

theorem cacheEntryOf_unknown {fields : List (String × Json)}
    (h : ∀ kind, Json.get? fields "kind" = some (.str kind) →
      kind ≠ "output" ∧ kind ≠ "unsupported" ∧ kind ≠ "compile-failed") :
    cacheEntryOf (.obj fields) = none := by
  simp only [cacheEntryOf]
  cases hkind : Json.get? fields "kind" with
  | none => simp
  | some kind =>
    cases kind with
    | str kind =>
      obtain ⟨h₁, h₂, h₃⟩ := h kind hkind
      split <;> simp_all
    | _ => simp

/-- Nothing that may be found on disk is accepted but what was compiled. -/
theorem Admissible.sound {value : Json} {entry : NamespacedCacheEntry}
    (h : Admissible compiled id (some (.json value))) (hread : cacheEntryOf value = some entry) :
    SoundFor compiled id entry := by
  cases h with
  | legacyValue hvalue =>
    cases value with
    | obj fields => exact absurd rfl (hvalue fields)
    | _ => cases hread
  | legacyOutput hfields => simp [hfields] at hread
  | unknownKind hkind =>
    rw [cacheEntryOf_unknown hkind] at hread
    cases hread
  | written hcompiled => exact ⟨_, hcompiled, cacheEntryOf_stringified hread⟩

-- ---------------------------------------------------------------------------
-- The invariant
-- ---------------------------------------------------------------------------

structure CacheState.Sound (compiled : String → Except Failure NamespacedCacheEntry)
    (s : CacheState ρ) : Prop where
  memory : ∀ p id entry, s.memory p id = some entry → SoundFor compiled id entry
  files : ∀ path, Admissible compiled path.id (s.files path)
  once : s.announced.Nodup
  warned : ∀ p id, (p, id) ∈ s.announced → id ∈ s.warned p

theorem CacheState.Sound.start {files : CachePath → Option FileContent}
    (h : ∀ path, Admissible compiled path.id (files path)) :
    (CacheState.start files : CacheState ρ).Sound compiled :=
  ⟨nofun, h, List.nodup_nil, nofun⟩

theorem CacheState.Sound.weather {s t : CacheState ρ} (h : s.Sound compiled)
    (hw : Namespaced.weather compiled s t) : t.Sound compiled := by
  obtain ⟨ht, hfiles⟩ := hw
  rw [ht]
  refine ⟨h.memory, fun path => ?_, h.once, h.warned⟩
  rcases hfiles path with heq | hadm
  · exact heq ▸ h.files path
  · exact hadm

/-- What a call puts into memory or on disk is sound there. -/
def PutsSound (compiled : String → Except Failure NamespacedCacheEntry) : CacheOp → Prop
  | .memorySet id entry => SoundFor compiled id entry
  | .writeFile path contents => Admissible compiled path.id (some (.json contents))
  | _ => True

variable [DecidableEq ρ] {s s' : CacheState ρ} {p : ρ} {solc : Solc}

theorem CacheState.Sound.remember {entry : NamespacedCacheEntry} (h : s.Sound compiled)
    (hentry : SoundFor compiled id entry) : (s.remember p id entry).Sound compiled := by
  refine ⟨fun q id' entry' hq => ?_, h.files, h.once, h.warned⟩
  simp only [CacheState.remember, Function.update_apply] at hq
  split at hq
  · rename_i hqp
    subst hqp
    rw [Function.update_apply] at hq
    split at hq
    · rename_i hid
      obtain rfl := Option.some.inj hq
      exact hid ▸ hentry
    · exact h.memory _ _ _ hq
  · exact h.memory _ _ _ hq

omit [DecidableEq ρ] in
theorem CacheState.Sound.put {path : CachePath} {content : Option FileContent}
    (h : s.Sound compiled) (hcontent : Admissible compiled path.id content) :
    (s.put path content).Sound compiled := by
  refine ⟨h.memory, fun path' => ?_, h.once, h.warned⟩
  simp only [CacheState.put, Function.update_apply]
  split
  · rename_i hpath
    exact hpath ▸ hcontent
  · exact h.files path'

theorem CacheState.Sound.warnNamespacedFallback (h : s.Sound compiled) :
    (s.warnNamespacedFallback p id).Sound compiled := by
  unfold CacheState.warnNamespacedFallback
  split
  · exact h
  · rename_i hid
    refine ⟨h.memory, h.files, List.nodup_cons.mpr ⟨fun hmem => hid (h.warned p id hmem), h.once⟩,
      fun q id' hmem => ?_⟩
    simp only [Function.update_apply]
    rcases List.mem_cons.mp hmem with heq | hold
    · obtain ⟨rfl, rfl⟩ := Prod.mk.inj heq
      simp
    · split
      · rename_i hq
        subst hq
        exact List.mem_cons_of_mem _ (h.warned _ id' hold)
      · exact h.warned q id' hold

theorem CacheState.Sound.step {op : CacheOp} {r : Except NamespacedFailure op.Reply}
    (h : s.Sound compiled) (hop : PutsSound compiled op)
    (hs : (cacheWorld solc compiled p).step s op r s') : s'.Sound compiled := by
  obtain ⟨t, hweather, hs⟩ := hs
  have ht := h.weather hweather
  cases hs with
  | memorySet => exact ht.remember hop
  | writeFile => exact ht.put hop
  | torn => exact ht.put .notJson
  | warnNamespacedFallback => exact ht.warnNamespacedFallback
  | _ => exact ht

-- ---------------------------------------------------------------------------
-- What a call sees
-- ---------------------------------------------------------------------------

/-- The answers one process may get in the states of the invariant. -/
abbrev seenWorld (solc : Solc) (compiled : String → Except Failure NamespacedCacheEntry) (p : ρ) :
    World cacheEffects NamespacedFailure Unit :=
  (cacheWorld solc compiled p).seen (CacheState.Sound compiled)

section
variable {t t' : Unit}

theorem seen_memoryGet {r : Except NamespacedFailure (Option NamespacedCacheEntry)}
    (h : (seenWorld solc compiled p).step t (.memoryGet id) r t') :
    ∃ cached, r = .ok cached ∧ ∀ entry, cached = some entry → SoundFor compiled id entry := by
  obtain ⟨s, s', hsound, u, hweather, hs⟩ := h
  cases hs with
  | memoryGet => exact ⟨_, rfl, (hsound.weather hweather).memory p id⟩

theorem seen_readFile {path : CachePath} {value : Json} {entry : NamespacedCacheEntry}
    (h : (seenWorld solc compiled p).step t (.readFile path) (.ok value) t')
    (hread : cacheEntryOf value = some entry) : SoundFor compiled path.id entry := by
  obtain ⟨s, s', hsound, u, hweather, hs⟩ := h
  cases hs with
  | readFile hfile =>
    have hadm := (hsound.weather hweather).files path
    rw [hfile] at hadm
    exact hadm.sound hread

theorem seen_compileNamespaced {input : Json} {solcVersion : String}
    {r : Except NamespacedFailure Json}
    (h : (seenWorld solc compiled p).step t (.compileNamespaced id input solcVersion) r t') :
    r = foreign (solc id input solcVersion) := by
  obtain ⟨s, s', -, u, -, hs⟩ := h
  cases hs with
  | compileNamespaced => rfl

theorem seen_memorySet {entry : NamespacedCacheEntry} {r : Except NamespacedFailure Unit}
    (h : (seenWorld solc compiled p).step t (.memorySet id entry) r t') : r = .ok () := by
  obtain ⟨s, s', -, u, -, hs⟩ := h
  cases hs with
  | memorySet => rfl

theorem seen_warn {lines : List (Option Json)} {r : Except NamespacedFailure Unit}
    (h : (seenWorld solc compiled p).step t (.warnNamespacedFallback id lines) r t') :
    r = .ok () := by
  obtain ⟨s, s', -, u, -, hs⟩ := h
  cases hs with
  | warnNamespacedFallback => rfl

end

-- ---------------------------------------------------------------------------
-- How a call ends
-- ---------------------------------------------------------------------------

/-- The script keeps the invariant and ends so, whatever it is answered. -/
def Ends (solc : Solc) (compiled : String → Except Failure NamespacedCacheEntry) (p : ρ) {α : Type}
    (x : CacheTask α) (Q : Except NamespacedFailure α → Prop) : Prop :=
  wp (seenWorld solc compiled p) (fun _ => PutsSound compiled) x (fun o _ => Q o) ()

section
variable {α β : Type} {x : CacheTask α} {f : α → CacheTask β} {core : NamespacedCore}
  {hre : HardhatRuntimeEnvironment} {buildInfo : BuildInfo}

theorem Ends.mono {Q R : Except NamespacedFailure α → Prop} (h : Ends solc compiled p x Q)
    (hQ : ∀ o, Q o → R o) : Ends solc compiled p x R :=
  wp_mono (fun o _ => hQ o) h

theorem Ends.of_ended {o : Except NamespacedFailure α} {Q : Except NamespacedFailure α → Prop}
    (h : Ends solc compiled p (.ofExcept o) Q) : Q o := by
  cases o <;> exact h

theorem Ends.bind {R : Except NamespacedFailure α → Prop} {Q : Except NamespacedFailure β → Prop}
    (h : Ends solc compiled p x R) (ok : ∀ a, R (.ok a) → Ends solc compiled p (f a) Q)
    (error : ∀ e, R (.error e) → Q (.error e)) : Ends solc compiled p (x.bind f) Q :=
  wp.bind h (fun a _ => ok a) fun e _ => error e

theorem Ends.catching {handler : NamespacedFailure → CacheTask α}
    {R Q : Except NamespacedFailure α → Prop} (h : Ends solc compiled p x R)
    (ok : ∀ a, R (.ok a) → Q (.ok a))
    (error : ∀ e, R (.error e) → Ends solc compiled p (handler e) Q) :
    Ends solc compiled p (x.catching handler) Q :=
  wp.catching h (fun a _ => ok a) fun e _ => error e

theorem Ends.ask_bind (op : CacheOp) {f : op.Reply → CacheTask β}
    {Q : Except NamespacedFailure β → Prop} (guard : PutsSound compiled op)
    (ok : ∀ a, (seenWorld solc compiled p).step () op (.ok a) () → Ends solc compiled p (f a) Q)
    (error : ∀ e, (seenWorld solc compiled p).step () op (.error e) () → Q (.error e)) :
    Ends solc compiled p ((ask op).bind f) Q :=
  wp.perform_bind (S := cacheEffects) guard (fun a _ => ok a) fun e _ => error e

/-- An operation that is never refused. -/
theorem Ends.done_bind (op : CacheOp) {f : op.Reply → CacheTask β}
    {Q : Except NamespacedFailure β → Prop} (guard : PutsSound compiled op)
    (done : ∀ e, ¬ (seenWorld solc compiled p).step () op (.error e) ())
    (next : ∀ a, Ends solc compiled p (f a) Q) : Ends solc compiled p ((ask op).bind f) Q :=
  .ask_bind op guard (fun a _ => next a) fun e h => absurd h (done e)

theorem Ends.foreign_bind {r : Except Failure α} {g : α → Except Failure β}
    (next : ∀ a, Ends solc compiled p (f a) (· = foreign (g a))) :
    Ends solc compiled p ((Script.ofExcept (foreign r)).bind f) (· = foreign (r >>= g)) := by
  cases r with
  | error e => rfl
  | ok a => exact next a

theorem Ends.compile_bind {input : Json} {solcVersion : String} {f : Json → CacheTask β}
    {g : Json → Except Failure β}
    (next : ∀ output, Ends solc compiled p (f output) (· = foreign (g output))) :
    Ends solc compiled p ((ask (.compileNamespaced id input solcVersion)).bind f)
      (· = foreign (solc id input solcVersion >>= g)) := by
  refine .ask_bind (.compileNamespaced id input solcVersion) trivial ?_ ?_
  · intro output h
    cases hsolc : solc id input solcVersion with
    | error e =>
      have hr := seen_compileNamespaced h
      rw [hsolc] at hr
      cases hr
    | ok output' =>
      have hr := seen_compileNamespaced h
      rw [hsolc] at hr
      obtain rfl := Except.ok.inj hr
      exact next output
  · intro e h
    have hr := seen_compileNamespaced h
    cases hsolc : solc id input solcVersion with
    | error e' =>
      rw [hsolc] at hr
      obtain rfl := Except.error.inj hr
      rfl
    | ok output =>
      rw [hsolc] at hr
      cases hr

/-- A recompilation ends as it is computed. -/
theorem computeNamespacedEntry_ends :
    Ends solc compiled p (computeNamespacedEntry core buildInfo)
      (· = foreign (computedEntry core solc buildInfo)) := by
  unfold computeNamespacedEntry computedEntry
  simp only [Script.bind_eq, Script.pure_eq]
  apply Ends.foreign_bind
  rintro (_ | _)
  · rfl
  · refine .foreign_bind fun input => .foreign_bind fun sanitized => .compile_bind fun output => ?_
    exact wp_ofExcept.mpr rfl

/-- What a lookup that may miss has found. -/
def Finds (compiled : String → Except Failure NamespacedCacheEntry) (id : String)
    (o : Except NamespacedFailure (Option NamespacedCacheEntry)) : Prop :=
  ∀ entry, o = .ok (some entry) → SoundFor compiled id entry

/-- An accepted file is as good as a recompilation; everything else is a miss. -/
theorem entryOnDisk_ends :
    Ends solc compiled p (entryOnDisk hre id)
      (fun o => (∃ found, o = .ok found) ∧ Finds compiled id o) := by
  refine Ends.catching (R := Finds compiled id) ?_ (fun found h => ⟨⟨found, rfl⟩, h⟩)
    fun _ _ => ⟨⟨none, rfl⟩, nofun⟩
  refine .ask_bind (.readFile (diskCachePath hre id)) trivial ?_ nofun
  intro parsed h
  cases hread : cacheEntryOf parsed with
  | none => exact nofun
  | some entry =>
    have hsound : SoundFor compiled id entry := seen_readFile h hread
    refine .done_bind (.memorySet id entry) hsound ?_ ?_
    · exact fun e h => nomatch seen_memorySet h
    · rintro _ entry' ⟨⟩
      exact hsound

/-- The entry a call works from, or the failure of its recompilation. -/
def Resolves (compiled : String → Except Failure NamespacedCacheEntry) (id : String)
    (o : Except NamespacedFailure NamespacedCacheEntry) : Prop :=
  match o with
  | .ok entry => SoundFor compiled id entry
  | .error e => ∃ failure, e = .other failure ∧ compiled id = .error failure

theorem ok_eq_foreign {r : Except Failure α} {a : α} (h : .ok a = foreign r) : r = .ok a := by
  cases r with
  | error failure => cases h
  | ok a' => exact congrArg _ (Except.ok.inj h).symm

theorem error_eq_foreign {r : Except Failure α} {e : NamespacedFailure}
    (h : .error e = foreign r) : ∃ failure, e = .other failure ∧ r = .error failure := by
  cases r with
  | error failure => exact ⟨failure, Except.error.inj h, rfl⟩
  | ok a => cases h

/-- A write that fails, fails no call. -/
theorem writeEntry_ends {path : CachePath} {entry : NamespacedCacheEntry}
    (hentry : compiled path.id = .ok entry) :
    Ends solc compiled p
      (tryCatch (do
        ask (.mkdir path)
        ask (.writeFile path entry.stringified)) fun _ => return ()) (· = .ok ()) := by
  refine Ends.catching (R := fun _ => True) ?_ (fun _ _ => rfl) fun _ _ => rfl
  refine .ask_bind (.mkdir path) trivial (fun _ _ => ?_) fun _ _ => trivial
  exact wp_perform.mpr ⟨.written hentry, fun _ _ _ => trivial⟩

theorem resolveNamespacedEntry_ends
    (hcompiled : computedEntry core solc buildInfo = compiled buildInfo.id) :
    Ends solc compiled p (resolveNamespacedEntry core hre buildInfo)
      (Resolves compiled buildInfo.id) := by
  unfold resolveNamespacedEntry
  simp only [Script.bind_eq, Script.pure_eq]
  refine .ask_bind (.memoryGet buildInfo.id) trivial ?_ ?_
  · intro cached h
    obtain ⟨_, ⟨⟩, hcached⟩ := seen_memoryGet h
    cases cached with
    | some entry => exact hcached entry rfl
    | none =>
      refine .bind entryOnDisk_ends ?_ ?_
      · rintro onDisk ⟨-, hfound⟩
        cases onDisk with
        | some entry => exact hfound entry rfl
        | none =>
          refine .bind computeNamespacedEntry_ends ?_ ?_
          · intro entry hentry
            have hentry := hcompiled.symm.trans (ok_eq_foreign hentry)
            refine .done_bind (.memorySet buildInfo.id entry) (.of_compiled hentry) ?_ ?_
            · exact fun e h => nomatch seen_memorySet h
            · refine fun _ => .bind (writeEntry_ends hentry) ?_ nofun
              exact fun _ _ => .of_compiled hentry
          · intro e he
            obtain ⟨failure, rfl, hfailure⟩ := error_eq_foreign he
            exact ⟨failure, rfl, hcompiled.symm.trans hfailure⟩
      · rintro e ⟨⟨_, ⟨⟩⟩, -⟩
  · intro e h
    obtain ⟨_, ⟨⟩, _⟩ := seen_memoryGet h

/-- The setting of the calling process decides, at each use. -/
theorem useEntry_ends (entry : NamespacedCacheEntry) :
    Ends solc compiled p (useEntry hre buildInfo entry) (· = severity hre buildInfo entry) := by
  cases entry with
  | output value => rfl
  | unsupported =>
    refine Ends.bind (R := (· = .ok ())) (wp.when (fun _ => ?_) fun _ => rfl) (fun _ _ => rfl) nofun
    exact wp_perform.mpr ⟨trivial, fun r _ h => seen_warn h⟩
  | compileFailed errorLines =>
    unfold useEntry reportNamespacedCompileFailure severity
    cases hre.namespacedCompileErrors.getD .error with
    | error => rfl
    | warn =>
      refine .done_bind (.warnNamespacedFallback buildInfo.id _) trivial ?_ fun _ => rfl
      exact fun e h => nomatch seen_warn h
    | ignore => rfl

/-- One call, whatever the others have left in memory and on disk. -/
theorem getNamespacedOutput_ends
    (hcompiled : computedEntry core solc buildInfo = compiled buildInfo.id) :
    Ends solc compiled p (getNamespacedOutput core hre buildInfo)
      (· = recomputed core solc hre buildInfo) := by
  unfold recomputed
  rw [hcompiled]
  refine .bind (resolveNamespacedEntry_ends hcompiled) ?_ ?_
  · rintro entry ⟨entry', hentry', halike⟩
    refine (useEntry_ends entry).mono ?_
    rintro o rfl
    rw [hentry', halike]
    rfl
  · rintro e ⟨failure, rfl, hfailure⟩
    rw [hfailure]
    rfl

end

-- ---------------------------------------------------------------------------
-- Every interleaving of calls
-- ---------------------------------------------------------------------------

/-- The same operations where nothing is refused. -/
def cacheAnswer (solc : Solc) (p : ρ) (s : CacheState ρ) :
    (op : CacheOp) → Except NamespacedFailure op.Reply × CacheState ρ
  | .memoryGet id => (.ok (s.memory p id), s)
  | .memorySet id entry => (.ok (), s.remember p id entry)
  | .readFile path =>
    match s.files path with
    | some (.json value) => (.ok value, s)
    | _ => (.error (.other (.error "ENOENT")), s)
  | .mkdir _ => (.ok (), s)
  | .writeFile path contents => (.ok (), s.put path (some (.json contents)))
  | .compileNamespaced id input solcVersion => (foreign (solc id input solcVersion), s)
  | .warnNamespacedFallback id _ => (.ok (), s.warnNamespacedFallback p id)

theorem cacheAnswer_allowed (p : ρ) : (cacheWorld solc compiled p).Allows (cacheAnswer solc p) := by
  intro s op
  refine ⟨s, ⟨rfl, fun _ => .inl rfl⟩, ?_⟩
  show CacheStep solc p s op _ _
  cases op with
  | readFile path =>
    simp only [cacheAnswer]
    split
    · exact .readFile ‹_›
    · exact .unread
  | _ => constructor

/-- Calls from any processes, each under its own setting, over a disk in any
state the plugin's versions may have left: each ends, and as a recompilation
would; no process warns of a build-info twice. -/
theorem getNamespacedOutput_transparent [DecidableEq ι] (core : NamespacedCore) (solc : Solc)
    (compiled : String → Except Failure NamespacedCacheEntry) (process : ι → ρ)
    (hre : ι → HardhatRuntimeEnvironment) (buildInfo : ι → BuildInfo)
    (hcompiled : ∀ i, computedEntry core solc (buildInfo i) = compiled (buildInfo i).id)
    (files : CachePath → Option FileContent)
    (hfiles : ∀ path, Admissible compiled path.id (files path))
    (xs : ι → CacheTask (Option Json)) (s : CacheState ρ)
    (run : Pool.Reaches (fun i => cacheWorld solc compiled (process i))
      (fun i => getNamespacedOutput core (hre i) (buildInfo i), .start files) (xs, s)) :
    (∀ i o, xs i = .ofExcept o → o = recomputed core solc (hre i) (buildInfo i)) ∧
      s.announced.Nodup ∧
      ∀ i, ∃ xs' s', Pool.Reaches (fun i => cacheWorld solc compiled (process i))
        (xs, s) (xs', s') ∧ xs' i = .ofExcept (recomputed core solc (hre i) (buildInfo i)) := by
  have hend : ∀ c, Pool.Reaches (fun i => cacheWorld solc compiled (process i))
      (fun i => getNamespacedOutput core (hre i) (buildInfo i), .start files) c →
      c.2.Sound compiled ∧ ∀ i, Ends solc compiled (process i) (c.1 i)
        (· = recomputed core solc (hre i) (buildInfo i)) := by
    intro c hc
    have hshared := Pool.shared (W := fun i => cacheWorld solc compiled (process i))
      (I := CacheState.Sound compiled) (G := fun _ => PutsSound compiled)
      (Q := fun i o => o = recomputed core solc (hre i) (buildInfo i))
    refine hshared ?_ (CacheState.Sound.start hfiles) ?_ hc
    · exact fun i s op r s' hs hop h => hs.step hop h
    · exact fun i => getNamespacedOutput_ends (hcompiled i)
  have hends : ∀ c, Pool.Reaches (fun i => cacheWorld solc compiled (process i))
      (fun i => getNamespacedOutput core (hre i) (buildInfo i), .start files) c →
      ∀ i o, c.1 i = .ofExcept o → o = recomputed core solc (hre i) (buildInfo i) := by
    intro c hc i o ho
    have hwp := (hend c hc).2 i
    rw [ho] at hwp
    exact hwp.of_ended
  refine ⟨hends _ run, (hend _ run).1.once, fun i => ?_⟩
  have hfinish := Pool.reaches_of_script (W := fun i => cacheWorld solc compiled (process i)) i
    (reaches_run (cacheAnswer_allowed (process i)) (xs i) s)
  have ho := hends _ (run.trans hfinish) i _ (Function.update_self ..)
  exact ⟨_, _, hfinish, by rw [← ho]; exact Function.update_self ..⟩

end

-- A compiler that refuses everything, and two processes under two settings.

def sampleCore : NamespacedCore where
  isNamespaceSupported _ := .ok true
  makeNamespacedInput input _ _ := .ok input
  trySanitizeNatSpec input _ := .ok input

def sampleSolc : Solc := fun _ _ _ =>
  .ok (.obj [("errors", .arr [.obj [("severity", .str "error"),
    ("formattedMessage", .str "E: boom")]])])

def sampleBuildInfo : BuildInfo := ⟨"b1", "0.8.26", .null, .null⟩

def sampleHre (strict : Bool) : HardhatRuntimeEnvironment where
  artifacts := "/project/artifacts"
  namespacedCompileErrors := if strict then some .error else some .warn

theorem getNamespacedOutput_transparent_sample : ∃ xs s,
    Pool.Reaches (fun i => cacheWorld sampleSolc (fun _ => .ok (.compileFailed [some (.str "E: boom")])) i)
      (fun strict => getNamespacedOutput sampleCore (sampleHre strict) sampleBuildInfo,
        .start fun _ => some .notJson) (xs, s) ∧
      xs true = .throw (.namespacedCompileError "b1"
        (compileFailedMessage "b1" [some (.str "E: boom")])) := by
  have h := getNamespacedOutput_transparent sampleCore sampleSolc
    (fun _ => .ok (.compileFailed [some (.str "E: boom")])) id sampleHre (fun _ => sampleBuildInfo)
    (fun _ => rfl) (fun _ => some .notJson) (fun _ => .notJson) _ _ .refl
  exact h.2.2 true

end TronUpgrades.Hardhat.Namespaced
