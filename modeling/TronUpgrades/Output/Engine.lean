import Mathlib.Logic.Function.Basic
import TronUpgrades.Output.Channel

/-!
# Capturing what the engine prints

`captureEngineWarnings` over the state it shares with everything else in the
process: the function at `console.error` and the mark of the open window. A
`Program` is the function that is passed to it, from the outside.
-/

namespace TronUpgrades.Output

open Validation (isSpace)

-- ---------------------------------------------------------------------------
-- Rendering
-- ---------------------------------------------------------------------------

def isAsciiLetter (c : Char) : Bool := ('A' ≤ c && c ≤ 'Z') || ('a' ≤ c && c ≤ 'z')

/-- What follows `[0-9;]*[A-Za-z]` at the head. -/
def afterCsi (text : List Char) : Option (List Char) :=
  match text.dropWhile fun c => c.isDigit || c == ';' with
  | c :: rest => if isAsciiLetter c then some rest else none
  | [] => none

/-- `fuel` is the length of the text. -/
def stripAnsiFrom : Nat → List Char → List Char
  | fuel + 1, c :: text =>
    match c, text with
    | '\x1b', '[' :: rest =>
      match afterCsi rest with
      | some after => stripAnsiFrom fuel after
      | none => c :: stripAnsiFrom fuel text
    | _, _ => c :: stripAnsiFrom fuel text
  | _, _ => []

def stripAnsi (text : String) : String := .ofList (stripAnsiFrom text.length text.toList)

example : stripAnsi "\x1b[1;33mWarning:\x1b[0m x" = "Warning: x" := by decide

def renderArgument : Value → String
  | .string text => text
  | value => "[" ++ value.typeOf ++ "]"

def renderCapturedWrite (args : List Value) : String :=
  String.intercalate " " (args.map renderArgument)

def warningPrefix : String := "Warning: "
def notePrefix : String := "Note: "

def warningRemedy : String :=
  "The text above is the upgrade-safety engine's own, relayed unchanged. Address the construct " ++
    "it names, or opt out deliberately through unsafeAllow after confirming by hand that it is " ++
    "safe."

def noteRemedy : String :=
  "Informational: the engine states that it reduced what it validated. Read the text above and " ++
    "verify the construct it names by other means if you rely on it being checked."

def blankWriteSummary : String := "The upgrade-safety engine wrote an empty line to console.error"

/-- What follows a prefix of the text. -/
def dropPrefix? (start text : String) : Option String :=
  if start.toList.isPrefixOf text.toList then some (.ofList (text.toList.drop start.length))
  else none

/-- The code of a captured text, and the text without its prefix. -/
def engineLevel (stripped : String) : DegradedCode × String :=
  match dropPrefix? notePrefix stripped, dropPrefix? warningPrefix stripped with
  | some body, _ => (.engineNote, body)
  | none, some body => (.engineWarning, body)
  | none, none => (.engineWarning, stripped)

/-- `line.replace(/^ {0,4}/, '').trimEnd()` -/
def detailLine (line : List Char) : String :=
  let indent := (line.take 4).takeWhile (· == ' ')
  .ofList ((line.drop indent.length).reverse.dropWhile isSpace).reverse

-- No definition that relays a note has to look into it.
@[irreducible]
def engineNote (captured : String) : DegradedNote :=
  let level := engineLevel (stripAnsi captured)
  let lines := level.2.toList.splitOn '\n'
  let title := trim (.ofList (lines.headD []))
  { code := level.1
    summary := if title = "" then blankWriteSummary else title
    detail := (lines.tail.map detailLine).filter (· ≠ "")
    remedy := if level.1 = .engineNote then noteRemedy else warningRemedy }

-- ---------------------------------------------------------------------------
-- The function that is run
-- ---------------------------------------------------------------------------

/-- A function by what it does next: it ends, it writes to `console.error`, or
it opens a window of its own and goes on from how that ended. -/
inductive Program
  | ends (outcome : Except Raised Value)
  | writes (args : List Value) (next : Program)
  | captures (channel : Nat) (call : String) (fn : Program) (next : Except Raised Value → Program)

-- ---------------------------------------------------------------------------
-- The process
-- ---------------------------------------------------------------------------

inductive ErrorFunction
  /-- Any function that is not a window's. -/
  | host (id : Nat)
  /-- Pushes onto the array. -/
  | window (array : Nat)
  deriving DecidableEq, Repr

structure Process where
  consoleError : ErrorFunction
  activeCall : Option String
  /-- The arrays that windows have buffered into. -/
  arrays : List (List String)
  channels : Nat → Channel

/-- `console.error(...args)` -/
def Process.write (process : Process) (args : List Value) : Process :=
  match process.consoleError with
  | .host _ => process
  | .window array =>
    { process with arrays := process.arrays.modify array (· ++ [renderCapturedWrite args]) }

/-- Only a callable `then` counts; reading it may raise. -/
def isThenable (value : Value) : Except Value Bool :=
  if value.isObjectLike then do
    let method ← value.peek "then"
    return method.typeOf = "function"
  else .ok false

/-- What the window makes of how the function ended: `none` where it returned a
thenable. -/
def windowOutcome : Except Raised Value → Except Raised (Option Value)
  | .error raised => .error raised
  | .ok value =>
    match isThenable value with
    | .error raised => .error (.value raised)
    | .ok true => .ok none
    | .ok false => .ok (some value)

/-- The window; `captured` is the caller's array. -/
def runCaptureWindow (call : String) (captured : Nat)
    (fn : Process → Except Raised Value × Process) (process : Process) :
    Except Raised (Option Value) × Process :=
  let saved := process.consoleError
  let result := fn { process with consoleError := .window captured, activeCall := some call }
  -- the `finally`, on every way out
  (windowOutcome result.1, { result.2 with consoleError := saved, activeCall := none })

/-- Up to the first note that the channel does not take. -/
def flush : List String → Channel → Except Raised Unit × Channel
  | [], channel => (.ok (), channel)
  | write :: writes, channel =>
    match channel.degraded (engineNote write).given with
    | (.ok _, channel) => flush writes channel
    | (.error raised, channel) => (.error raised, channel)

def settled (call : String) : Except Raised (Option Value) → Except Raised Value
  | .error raised => .error raised
  | .ok none => .error (.notSynchronous call)
  | .ok (some value) => .ok value

def captureEngineWarnings (channel : Nat) (call : String)
    (fn : Process → Except Raised Value × Process) (process : Process) :
    Except Raised Value × Process :=
  match process.activeCall with
  | some activeCall => (.error (.reentrant call activeCall), process)
  | none =>
    let captured := process.arrays.length
    let result := runCaptureWindow call captured fn { process with arrays := process.arrays ++ [[]] }
    -- the `finally`: the buffer is drained, and what the relay raises replaces the outcome
    let writes := result.2.arrays.getD captured []
    let flushed := flush writes (result.2.channels channel)
    let process := { result.2 with
      arrays := result.2.arrays.set captured []
      channels := Function.update result.2.channels channel flushed.2 }
    (match flushed.1 with
      | .ok () => settled call result.1
      | .error raised => .error raised, process)

def Program.run : Program → Process → Except Raised Value × Process
  | .ends outcome, process => (outcome, process)
  | .writes args next, process => next.run (process.write args)
  | .captures channel call fn next, process =>
    let result := captureEngineWarnings channel call fn.run process
    (next result.1).run result.2

end TronUpgrades.Output
