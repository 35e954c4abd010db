import TronUpgrades.Js.Value
import TronUpgrades.Validation.Layout

/-!
# The output channel

What is recorded of the notes that a channel is given, and what is written of
them to the host's sink. A note past the cap is counted and not kept.
-/

namespace TronUpgrades.Output

open Validation (isSpace)

abbrev Value := Js.Value Empty

-- ---------------------------------------------------------------------------
-- Notes
-- ---------------------------------------------------------------------------

inductive DegradedCode
  | namespacedAstOnly | storageLayoutUnavailable | artifactNameIndeterminate | engineWarning
  | engineNote | notesTruncated
  deriving DecidableEq, Repr

structure DegradedNote where
  code : DegradedCode
  summary : String
  detail : List String
  remedy : String
  deriving DecidableEq, Repr

/-- A note as a producer hands it in; its `detail` may be no array. -/
structure GivenNote where
  code : DegradedCode
  summary : String
  detail : Option (List String)
  remedy : String
  deriving DecidableEq, Repr

def DegradedNote.given (note : DegradedNote) : GivenNote :=
  ⟨note.code, note.summary, some note.detail, note.remedy⟩

inductive NoteField
  | summary | detail | remedy
  deriving DecidableEq, Repr

/-- `text.trim()` -/
def trim (text : String) : String :=
  .ofList ((text.toList.dropWhile isSpace).reverse.dropWhile isSpace).reverse

/-- The checks of a note, in their order. -/
def GivenNote.checked (note : GivenNote) : Except NoteField DegradedNote :=
  if trim note.summary = "" then .error .summary
  else if trim note.remedy = "" then .error .remedy
  else match note.detail with
    | none => .error .detail
    | some detail => .ok ⟨note.code, note.summary, detail, note.remedy⟩

-- ---------------------------------------------------------------------------
-- The sink
-- ---------------------------------------------------------------------------

/-- The host's logger at the moment of a write, and the silence flag: what its
two properties are read as, and how a call of either ends. -/
structure LogSink where
  silenced : Bool
  warn : Except Value Value
  log : Except Value Value
  call : Value → String → Except Value Unit

def detailIndent : String := "    "

/-- `[first, ...rest].join('\n')` -/
def joinLines (first : String) (rest : List String) : String := String.intercalate "\n" (first :: rest)

/-- The text that is written, if any is. The properties are read before the
`try`, and what the call raises is dropped. -/
def emit (sink : LogSink) (level title : String) (detail : List String) :
    Except Value (Option String) :=
  if sink.silenced then .ok none
  else do
    let candidate ← sink.warn
    let write ← if candidate.typeOf = "function" then .ok candidate else sink.log
    let text := joinLines (level ++ ": " ++ title) (detail.map (detailIndent ++ ·))
    return match sink.call write text with
      | .ok () => some text
      | .error _ => none

-- ---------------------------------------------------------------------------
-- The channel
-- ---------------------------------------------------------------------------

def recordedNoteCap : Nat := 100

structure HostChannelFacts where
  /-- The sink as it is when the note after the given number is written. -/
  logger : Nat → LogSink
  origin : String
  hostQuietRequested : Bool

/-- `written` is what the sink took. -/
structure Channel where
  facts : HostChannelFacts
  appended : List DegradedNote
  suppressed : Nat
  written : List String

def createOutputChannel (facts : HostChannelFacts) : Channel := ⟨facts, [], 0, []⟩

def Channel.describe (channel : Channel) : String :=
  "the plugin output channel (sink lineage: " ++ channel.facts.origin ++
    "; host quiet requested: " ++ toString channel.facts.hostQuietRequested ++ ")"

inductive Raised
  /-- What the function, an accessor of its result or an accessor of the sink
  threw. -/
  | value (value : Value)
  | noteInvalid (field : NoteField) (channel : String)
  | notSynchronous (call : String)
  | reentrant (call activeCall : String)

/-- Records, then writes. -/
def Channel.degraded (channel : Channel) (note : GivenNote) : Except Raised DegradedNote × Channel :=
  match note.checked with
  | .error field => (.error (.noteInvalid field channel.describe), channel)
  | .ok frozen =>
    if channel.appended.length ≥ recordedNoteCap then
      (.ok frozen, { channel with suppressed := channel.suppressed + 1 })
    else
      let recorded := { channel with appended := channel.appended ++ [frozen] }
      match emit (channel.facts.logger channel.appended.length) "Warning" frozen.summary
          (frozen.detail ++ ["Remedy: " ++ frozen.remedy]) with
      | .error raised => (.error (.value raised), recorded)
      | .ok text => (.ok frozen, { recorded with written := channel.written ++ text.toList })

def truncationNote (count : Nat) : DegradedNote where
  code := .notesTruncated
  summary := toString count ++ " further degraded-mode note(s) were suppressed after the first " ++
    toString recordedNoteCap ++ " on this operation"
  detail := ["This channel records at most " ++ toString recordedNoteCap ++ " notes per operation.",
    "Suppressed notes were neither recorded nor written, so the count above is the only record " ++
      "of them."]
  remedy := "Re-run the operation on a smaller set of contracts to see the remaining notes, or " ++
    "address the notes already listed — an operation producing more than " ++
    toString recordedNoteCap ++ " distinct degraded statements usually has one underlying cause."

def Channel.recorded (channel : Channel) : List DegradedNote :=
  if channel.suppressed = 0 then channel.appended
  else channel.appended ++ [truncationNote channel.suppressed]

-- ---------------------------------------------------------------------------
-- What a channel has recorded
-- ---------------------------------------------------------------------------

/-- Notes given one after another, however each call ends. -/
def Channel.give (channel : Channel) (notes : List GivenNote) : Channel :=
  notes.foldl (fun channel note => (channel.degraded note).2) channel

def GivenNote.accepted? (note : GivenNote) : Option DegradedNote := note.checked.toOption

/-- The valid notes up to the cap, and the number of those beyond it. -/
structure Channel.Holds (channel : Channel) (valid : List DegradedNote) : Prop where
  appended : channel.appended = valid.take recordedNoteCap
  suppressed : channel.suppressed = valid.length - recordedNoteCap

theorem createOutputChannel_holds (facts : HostChannelFacts) :
    (createOutputChannel facts).Holds [] := ⟨rfl, rfl⟩

variable {channel : Channel} {valid : List DegradedNote}

/-- Whatever the sink does, a valid note is held and another is not. -/
theorem Channel.Holds.degraded (h : channel.Holds valid) (note : GivenNote) :
    (channel.degraded note).2.Holds (valid ++ note.accepted?.toList) := by
  obtain ⟨happended, hsuppressed⟩ := h
  unfold Channel.degraded GivenNote.accepted?
  cases note.checked with
  | error field => simpa [Except.toOption] using ⟨happended, hsuppressed⟩
  | ok frozen =>
    by_cases hfull : channel.appended.length ≥ recordedNoteCap
    · have hlength : recordedNoteCap ≤ valid.length := by
        rw [happended, List.length_take] at hfull
        omega
      simp only [if_pos hfull, Except.toOption, Option.toList_some]
      refine ⟨?_, ?_⟩
      · simp [happended, List.take_append_of_le_length hlength]
      · simp only [List.length_append, List.length_singleton, hsuppressed]
        omega
    · have hlength : valid.length < recordedNoteCap := by
        rw [happended, List.length_take] at hfull
        omega
      have hrecorded : channel.appended ++ [frozen] = (valid ++ [frozen]).take recordedNoteCap := by
        rw [happended, List.take_of_length_le (Nat.le_of_lt hlength), List.take_of_length_le]
        simpa [List.length_append] using Nat.succ_le_of_lt hlength
      have hcount : channel.suppressed = (valid ++ [frozen]).length - recordedNoteCap := by
        simp only [List.length_append, List.length_singleton, hsuppressed]
        omega
      simp only [if_neg hfull, Except.toOption, Option.toList_some]
      split <;> exact ⟨hrecorded, hcount⟩

theorem Channel.Holds.give (h : channel.Holds valid) (notes : List GivenNote) :
    (channel.give notes).Holds (valid ++ notes.filterMap GivenNote.accepted?) := by
  induction notes generalizing channel valid with
  | nil => simpa [Channel.give] using h
  | cons note notes ih =>
    have := ih (h.degraded note)
    cases haccepted : note.accepted? <;>
      simpa [Channel.give, haccepted, List.filterMap_cons] using this

/-- The first hundred, and one statement of how many there were beyond them. -/
def recordedOf (valid : List DegradedNote) : List DegradedNote :=
  valid.take recordedNoteCap ++
    if valid.length ≤ recordedNoteCap then [] else [truncationNote (valid.length - recordedNoteCap)]

theorem Channel.Holds.recorded (h : channel.Holds valid) : channel.recorded = recordedOf valid := by
  unfold Channel.recorded recordedOf
  rw [h.appended, h.suppressed]
  by_cases hcap : valid.length ≤ recordedNoteCap
  · rw [if_pos (Nat.sub_eq_zero_of_le hcap), if_pos hcap, List.append_nil]
  · rw [if_neg (Nat.sub_ne_zero_of_lt (Nat.lt_of_not_le hcap)), if_neg hcap]

end TronUpgrades.Output
