import Mathlib.Data.List.TakeWhile
import TronUpgrades.Output.Engine

/-!
# What a window leaves behind

A window leaves the process as it found it, however the function ends, and what
the function wrote is on the channel.
-/

namespace TronUpgrades.Output

open Validation (isSpace)

-- ---------------------------------------------------------------------------
-- The engine's notes are valid
-- ---------------------------------------------------------------------------

theorem trim_all (text : String) :
    (trim text).toList.all isSpace = text.toList.all isSpace := by
  have hdrop : ∀ l : List Char, (l.dropWhile isSpace).all isSpace = l.all isSpace := by
    intro l
    rw [List.all_eq_not_any_not, List.any_dropWhile, Bool.not_not]
  simp only [trim, String.toList_ofList, List.all_reverse, hdrop]

theorem trim_eq_empty {text : String} : trim text = "" ↔ text.toList.all isSpace = true := by
  constructor
  · intro h
    rw [← trim_all, h]
    rfl
  · intro h
    have hnil : text.toList.dropWhile isSpace = [] :=
      List.dropWhile_eq_nil_iff.mpr (List.all_eq_true.mp h)
    simp [trim, hnil]

-- Literals are read by their first letter: evaluating all of one is slow.
theorem trim_letter {c : Char} (rest : List Char) (h : isSpace c = false) :
    trim (.ofList (c :: rest)) ≠ "" := by
  simp [trim_eq_empty, h]

theorem trim_append {first : String} (rest : String) (h : trim first ≠ "") :
    trim (first ++ rest) ≠ "" := by
  simp only [Ne, trim_eq_empty, String.toList_append, List.all_append] at h ⊢
  simp [h]

theorem trim_warningRemedy : trim warningRemedy ≠ "" :=
  trim_append _ (trim_append _ (trim_letter _ (by decide)))

theorem trim_noteRemedy : trim noteRemedy ≠ "" := trim_append _ (trim_letter _ (by decide))

theorem trim_blankWriteSummary : trim blankWriteSummary ≠ "" := trim_letter _ (by decide)

theorem DegradedNote.checked {note : DegradedNote} (hsummary : trim note.summary ≠ "")
    (hremedy : trim note.remedy ≠ "") : note.given.checked = .ok note := by
  simp [DegradedNote.given, GivenNote.checked, hsummary, hremedy]

/-- No captured write makes a note that the channel refuses. -/
theorem engineNote_checked (captured : String) :
    (engineNote captured).given.checked = .ok (engineNote captured) := by
  have hsummary : trim (engineNote captured).summary ≠ "" := by
    simp only [engineNote]
    split
    · exact trim_blankWriteSummary
    · rename_i h
      rwa [Ne, trim_eq_empty, trim_all, ← trim_eq_empty]
  have hremedy : trim (engineNote captured).remedy ≠ "" := by
    simp only [engineNote]
    split
    · exact trim_noteRemedy
    · exact trim_warningRemedy
  exact DegradedNote.checked hsummary hremedy

theorem engineNotes_accepted (writes : List String) :
    (writes.map fun write => (engineNote write).given).filterMap GivenNote.accepted? =
      writes.map engineNote := by
  induction writes with
  | nil => rfl
  | cons write writes ih =>
    have haccepted : (engineNote write).given.accepted? = some (engineNote write) := by
      rw [GivenNote.accepted?, engineNote_checked]
      rfl
    simp [haccepted, ih]

-- ---------------------------------------------------------------------------
-- Relaying
-- ---------------------------------------------------------------------------

/-- Its properties can be read; the call may throw as it likes. -/
def LogSink.Readable (sink : LogSink) : Prop :=
  sink.silenced = true ∨ ∃ candidate, sink.warn = .ok candidate ∧
    (candidate.typeOf = "function" ∨ ∃ log, sink.log = .ok log)

theorem emit_ok {sink : LogSink} (h : sink.Readable) (level title : String)
    (detail : List String) : ∃ text, emit sink level title detail = .ok text := by
  unfold emit
  rcases h with hsilenced | ⟨candidate, hwarn, hwrite⟩
  · exact ⟨none, by rw [if_pos hsilenced]⟩
  · by_cases hsilenced : sink.silenced = true
    · exact ⟨none, by rw [if_pos hsilenced]⟩
    · rw [if_neg hsilenced, hwarn]
      rcases hwrite with hfunction | ⟨log, hlog⟩
      · simp only [bind, Except.bind, if_pos hfunction]
        exact ⟨_, rfl⟩
      · rw [hlog]
        by_cases hfunction : candidate.typeOf = "function"
        · simp only [bind, Except.bind, if_pos hfunction]
          exact ⟨_, rfl⟩
        · simp only [bind, Except.bind, if_neg hfunction]
          exact ⟨_, rfl⟩

theorem Channel.degraded_facts (channel : Channel) (note : GivenNote) :
    (channel.degraded note).2.facts = channel.facts := by
  unfold Channel.degraded
  split
  · rfl
  · split
    · rfl
    · dsimp only
      split <;> rfl

theorem Channel.give_facts (channel : Channel) (notes : List GivenNote) :
    (channel.give notes).facts = channel.facts := by
  induction notes generalizing channel with
  | nil => rfl
  | cons note notes ih => exact (ih _).trans (channel.degraded_facts note)

theorem Channel.degraded_ok {channel : Channel} (h : ∀ n, (channel.facts.logger n).Readable)
    {note : GivenNote} {frozen : DegradedNote} (hchecked : note.checked = .ok frozen) :
    (channel.degraded note).1 = .ok frozen := by
  unfold Channel.degraded
  rw [hchecked]
  dsimp only
  split
  · rfl
  · obtain ⟨text, htext⟩ := emit_ok (h channel.appended.length) "Warning" frozen.summary
      (frozen.detail ++ ["Remedy: " ++ frozen.remedy])
    rw [htext]

/-- A note that the channel takes does not stop the relay. -/
theorem flush_cons {channel : Channel} {write : String} {frozen : DegradedNote}
    (h : (channel.degraded (engineNote write).given).1 = .ok frozen) (writes : List String) :
    flush (write :: writes) channel =
      flush writes (channel.degraded (engineNote write).given).2 := by
  rcases hgiven : channel.degraded (engineNote write).given with ⟨outcome, after⟩
  obtain rfl : outcome = .ok frozen := by rw [← h, hgiven]
  simp only [flush, hgiven]

/-- The relay gives every write to the channel. -/
theorem flush_gives {channel : Channel} (h : ∀ n, (channel.facts.logger n).Readable)
    (writes : List String) : flush writes channel =
      (.ok (), channel.give (writes.map fun write => (engineNote write).given)) := by
  induction writes generalizing channel with
  | nil => rfl
  | cons write writes ih =>
    have htaken := Channel.degraded_ok h (engineNote_checked write)
    have hfacts := channel.degraded_facts (engineNote write).given
    rw [flush_cons htaken, ih (by rw [hfacts]; exact h)]
    simp only [Channel.give, List.map_cons, List.foldl_cons]

-- ---------------------------------------------------------------------------
-- The window
-- ---------------------------------------------------------------------------

/-- What a function writes and how it ends inside the window of a call, where
every window it asks for is refused. -/
def Program.trace (call : String) : Program → List String × Except Raised Value
  | .ends outcome => ([], outcome)
  | .writes args next =>
    let rest := next.trace call
    (renderCapturedWrite args :: rest.1, rest.2)
  | .captures _ inner _ next => (next (.error (.reentrant inner call))).trace call

theorem captureEngineWarnings_refuses {process : Process} {active : String}
    (h : process.activeCall = some active) (channel : Nat) (call : String)
    (fn : Process → Except Raised Value × Process) :
    captureEngineWarnings channel call fn process = (.error (.reentrant call active), process) := by
  unfold captureEngineWarnings
  rw [h]

theorem modify_last {α : Type} (before : List α) (last : α) (f : α → α) :
    (before ++ [last]).modify before.length f = before ++ [f last] := by
  induction before with
  | nil => rfl
  | cons head before ih => simpa using ih

/-- One array more, with what the function writes. -/
theorem Program.run_window {call : String} (fn : Program) (process : Process)
    {before : List (List String)} {written : List String}
    (herror : process.consoleError = .window before.length)
    (hactive : process.activeCall = some call)
    (harrays : process.arrays = before ++ [written]) :
    fn.run process = ((fn.trace call).2,
      { process with arrays := before ++ [written ++ (fn.trace call).1] }) := by
  induction fn generalizing process written with
  | ends outcome => simp [Program.run, Program.trace, ← harrays]
  | writes args next ih =>
    have hwrite : process.write args =
        { process with arrays := before ++ [written ++ [renderCapturedWrite args]] } := by
      simp only [Process.write, herror, harrays, modify_last]
    have hnext := ih { process with
      arrays := before ++ [written ++ [renderCapturedWrite args]] } herror hactive rfl
    rw [Program.run, hwrite, hnext]
    simp [Program.trace]
  | captures channel inner fn next _ ih =>
    rw [Program.run, captureEngineWarnings_refuses hactive]
    exact ih _ process herror hactive harrays

/-- The process after a window: nothing is left of it but an empty array. -/
theorem captureEngineWarnings_closed {process : Process} (h : process.activeCall = none)
    (channel : Nat) (call : String) (fn : Program) :
    let flushed := flush (fn.trace call).1 (process.channels channel)
    captureEngineWarnings channel call fn.run process =
      (flushed.1.bind fun () => settled call (windowOutcome (fn.trace call).2),
        { process with
          arrays := process.arrays ++ [[]]
          channels := Function.update process.channels channel flushed.2 }) := by
  have hrun := fn.run_window { process with
      arrays := process.arrays ++ [[]]
      consoleError := .window process.arrays.length, activeCall := some call } rfl rfl rfl
  unfold captureEngineWarnings runCaptureWindow
  rw [h]
  simp only [hrun, List.nil_append]
  have hdrained : (process.arrays ++ [(fn.trace call).1]).getD process.arrays.length [] =
      (fn.trace call).1 := by simp
  have hset : (process.arrays ++ [(fn.trace call).1]).set process.arrays.length [] =
      process.arrays ++ [[]] := by simp
  rw [hdrained, hset]
  cases (flush (fn.trace call).1 (process.channels channel)).1 <;> rfl

-- ---------------------------------------------------------------------------
-- Every window
-- ---------------------------------------------------------------------------

theorem settled_raised (call : String) (raised : Raised) :
    settled call (windowOutcome (.error raised)) = .error raised := rfl

theorem settled_value {call : String} {value : Value} (h : isThenable value = .ok false) :
    settled call (windowOutcome (.ok value)) = .ok value := by
  rw [windowOutcome, h]
  rfl

theorem settled_thenable {call : String} {value : Value} (h : isThenable value = .ok true) :
    settled call (windowOutcome (.ok value)) = .error (.notSynchronous call) := by
  rw [windowOutcome, h]
  rfl

theorem settled_guarded {call : String} {value raised : Value}
    (h : isThenable value = .error raised) :
    settled call (windowOutcome (.ok value)) = .error (.value raised) := by
  rw [windowOutcome, h]
  rfl

/-- With a readable sink the relay changes no outcome, and every write is given
to the channel. -/
theorem captureEngineWarnings_relays {process : Process} (h : process.activeCall = none)
    (channel : Nat) (call : String) (fn : Program)
    (hreadable : ∀ n, ((process.channels channel).facts.logger n).Readable) :
    let result := captureEngineWarnings channel call fn.run process
    result.1 = settled call (windowOutcome (fn.trace call).2) ∧
      result.2.channels channel = (process.channels channel).give
        ((fn.trace call).1.map fun write => (engineNote write).given) := by
  intro result
  have hclosed : result = _ := captureEngineWarnings_closed h channel call fn
  rw [flush_gives hreadable] at hclosed
  rw [hclosed]
  exact ⟨rfl, Function.update_self _ _ _⟩

/-- A window gives the process back, refuses another inside it, and hands on the
outcome and the writes of the function; a channel has recorded the valid notes
up to its cap and the number of the rest. -/
theorem engine_warnings_relayed :
    (∀ (process : Process) (channel : Nat) (call : String) (fn : Program),
      process.activeCall = none →
      let after := (captureEngineWarnings channel call fn.run process).2
      after.consoleError = process.consoleError ∧ after.activeCall = none ∧
        ∀ other, other ≠ channel → after.channels other = process.channels other) ∧
    (∀ (process : Process) (channel : Nat) (call active : String)
      (fn : Process → Except Raised Value × Process), process.activeCall = some active →
      captureEngineWarnings channel call fn process =
        (.error (.reentrant call active), process)) ∧
    (∀ (process : Process) (channel : Nat) (call : String) (fn : Program)
      (facts : HostChannelFacts) (before : List GivenNote), process.activeCall = none →
      process.channels channel = (createOutputChannel facts).give before →
      (∀ n, (facts.logger n).Readable) →
      let result := captureEngineWarnings channel call fn.run process
      (result.2.channels channel).recorded = recordedOf
          (before.filterMap GivenNote.accepted? ++ (fn.trace call).1.map engineNote) ∧
        (∀ raised, (fn.trace call).2 = .error raised → result.1 = .error raised) ∧
        ∀ value, (fn.trace call).2 = .ok value →
          (isThenable value = .ok false → result.1 = .ok value) ∧
          (isThenable value = .ok true → result.1 = .error (.notSynchronous call)) ∧
          ∀ raised, isThenable value = .error raised → result.1 = .error (.value raised)) ∧
    ∀ (facts : HostChannelFacts) (notes : List GivenNote),
      ((createOutputChannel facts).give notes).recorded =
        recordedOf (notes.filterMap GivenNote.accepted?) := by
  refine ⟨?_, ?_, ?_, ?_⟩
  · intro process channel call fn hidle after
    have hclosed : after = _ :=
      congrArg Prod.snd (captureEngineWarnings_closed hidle channel call fn)
    rw [hclosed]
    exact ⟨rfl, hidle, fun other hother => Function.update_of_ne hother _ _⟩
  · intro process channel call active fn hopen
    exact captureEngineWarnings_refuses hopen channel call fn
  · intro process channel call fn facts before hidle hchannel hsink result
    have hfacts : (process.channels channel).facts = facts := by
      rw [hchannel, Channel.give_facts]
      rfl
    obtain ⟨houtcome, hgiven⟩ :=
      captureEngineWarnings_relays hidle channel call fn (by rw [hfacts]; exact hsink)
    have hholds := ((createOutputChannel_holds facts).give before).give
      ((fn.trace call).1.map fun write => (engineNote write).given)
    refine ⟨?_, ?_, ?_⟩
    · rw [engineNotes_accepted, List.nil_append] at hholds
      rw [hgiven, hchannel]
      exact hholds.recorded
    · intro raised hraised
      rw [houtcome, hraised, settled_raised]
    · intro value hvalue
      rw [houtcome, hvalue]
      exact ⟨settled_value, settled_thenable, fun raised => settled_guarded⟩
  · intro facts notes
    simpa using ((createOutputChannel_holds facts).give notes).recorded

-- ---------------------------------------------------------------------------
-- A run
-- ---------------------------------------------------------------------------

/-- A logger whose `warn` can be called. -/
def plainSink : LogSink where
  silenced := false
  warn := .ok (.object true none (fun _ => .ok false) fun _ => .ok .undefined)
  log := .ok .undefined
  call _ _ := .ok ()

def plainFacts : HostChannelFacts := ⟨fun _ => plainSink, "console", false⟩

def idleProcess : Process := ⟨.host 0, none, [], fun _ => createOutputChannel plainFacts⟩

/-- A warning, a window that is refused, and a throw. -/
def warningThenThrow : Program :=
  .writes [.string "Warning: a delegatecall"]
    (.captures 0 "assertStorageUpgradeSafe" (.ends (.ok .undefined)) fun _ =>
      .ends (.error (.value (.string "unsafe"))))

theorem warningThenThrow_relayed :
    let result := captureEngineWarnings 0 "assertUpgradeSafe" warningThenThrow.run idleProcess
    result.1 = .error (.value (.string "unsafe")) ∧ result.2.consoleError = .host 0 ∧
      (result.2.channels 0).recorded = [engineNote "Warning: a delegatecall"] := by
  have hreadable : ∀ n, (plainFacts.logger n).Readable := fun _ => .inr ⟨_, rfl, .inl rfl⟩
  obtain ⟨hrestored, -, hrelayed, -⟩ := engine_warnings_relayed
  obtain ⟨hrecorded, hraised, -⟩ := hrelayed idleProcess 0 "assertUpgradeSafe" warningThenThrow
    plainFacts [] rfl rfl hreadable
  refine ⟨hraised _ rfl, (hrestored idleProcess 0 "assertUpgradeSafe" warningThenThrow rfl).1, ?_⟩
  rw [hrecorded]
  rfl

/-- A value that raises where its `then` is read. -/
def guardedValue : Value := .object false none (fun _ => .ok true) fun _ => .error .null

/-- No promise, and not what the caller gets. -/
theorem guarded_value_lost :
    isThenable guardedValue ≠ .ok true ∧ ∀ value, (captureEngineWarnings 0 "validate"
      (Program.ends (.ok guardedValue)).run idleProcess).1 ≠ .ok value :=
  ⟨nofun, nofun⟩

end TronUpgrades.Output
