import FuzzCampaign.Failure.Backtrace
import FuzzCampaign.Text.Style

/-!
# Exception envelopes

A worker reports a failure as an envelope: the kind and text of the failure, where it came from, and
the frames of the call stack, the outermost first. The last frame is the one that failed, and it
carries the values that the test watched.

* `Envelope`, `Envelope.text`, `Envelope.innermost?`, `Envelope.canDebug`;
* `Envelope.ofPanic`, `Envelope.ofTestError`, `Envelope.ofHarnessError`;
* `Envelope.render`: the report for the terminal.
-/

namespace FuzzCampaign

/-- Who failed: the body of the test, or the worker around it. -/
inductive Origin
  | testBody
  | harness
  deriving DecidableEq, Repr

/-- The name of an origin. -/
def Origin.name : Origin → String
  | .testBody => "TestBody"
  | .harness => "Harness"

/-- The report of a failure. -/
structure Envelope where
  version : UInt16
  kind : String
  message : String
  origin : Origin
  frames : List StackFrame
  deriving DecidableEq, Repr

/-- A panic: its text, the place where it was raised, and the backtrace. -/
structure Panic where
  message : String
  location? : Option (String × UInt32)
  backtrace : String
  deriving DecidableEq, Repr

/-- An error that a test returned: its text and the texts of its causes, each the cause of the one
before it. -/
structure TestError where
  message : String
  causes : List String
  deriving DecidableEq, Repr

/-- The error of a failure that a test passes on. -/
def TestError.ofCampaignError (e : CampaignError) : TestError := ⟨e.message, e.causes⟩

namespace Envelope

/-- The version of the form of envelopes. -/
def currentVersion : UInt16 := 1

/-- The frames with the watched values on the last one; without frames, one that names the test. -/
def withLocals (test : String) (locals : List (String × String)) (frames : List StackFrame) :
    List StackFrame :=
  match frames.reverse with
  | [] => [{ StackFrame.unknown test with locals }]
  | last :: outer => (({ last with locals } : StackFrame) :: outer).reverse

/-- The frames of a panic: those of its backtrace, and the place of the panic unless the last of
them is that place. -/
def panicFrames (test : String) (p : Panic) : List StackFrame :=
  let frames := Backtrace.parse p.backtrace
  match p.location? with
  | none => frames
  | some (file, line) =>
    match frames.getLast? with
    | some f => if f.file = file ∧ f.line = line then frames else frames ++ [⟨file, line, test, []⟩]
    | none => [⟨file, line, test, []⟩]

/-- The report of a panic of the test body. -/
def ofPanic (test : String) (p : Panic) (locals : List (String × String)) : Envelope where
  version := currentVersion
  kind := "panic"
  message := p.message
  origin := .testBody
  frames := withLocals test locals (panicFrames test p)

/-- The text of an error with its causes, each on a line of its own. -/
def errorText (e : TestError) : String :=
  e.causes.foldl (fun text cause => text ++ "\n  caused by: " ++ cause) e.message

/-- The report of an error that the test body returned. -/
def ofTestError (test : String) (e : TestError) (locals : List (String × String)) : Envelope where
  version := currentVersion
  kind := "error"
  message := errorText e
  origin := .testBody
  frames := withLocals test locals []

/-- The report of a failure of the worker around the test. -/
def ofHarnessError (test : String) (e : CampaignError) : Envelope where
  version := currentVersion
  kind := e.kind
  message := e.message
  origin := .harness
  frames := withLocals test [] []

/-- The frame that failed. -/
def innermost? (e : Envelope) : Option StackFrame := e.frames.getLast?

/-- Whether a debugger is of use: the body of the test failed. -/
def canDebug (e : Envelope) : Bool := e.origin = .testBody

/-- The kind and the text of the failure. -/
def text (e : Envelope) : String := e.kind ++ ": " ++ e.message

/-- The heading of a report. -/
def heading : Origin → String
  | .testBody => "Traceback (most recent call last):"
  | .harness => "Worker setup failed:"

/-- A frame and its values. -/
def frameLines (colours : Bool) (f : StackFrame) : List String :=
  ("  " ++ (Style.of .cyan).paint colours f.function ++ " " ++ f.file ++ ":" ++ toString f.line) ::
    f.locals.map fun l => "      " ++ Style.faint.paint colours l.1 ++ " = " ++ l.2

/-- The report for the terminal. -/
def render (colours : Bool) (index : UInt64) (e : Envelope) : String :=
  let lines :=
    [Style.strong.paint colours (heading e.origin)] ++
      e.frames.flatMap (frameLines colours) ++
      [(Style.strongOf .red).paint colours e.kind ++ ": " ++ e.message,
        (Style.of .red).paint colours s!"Process #{index} failed with an exception above."]
  "\n".intercalate lines

end Envelope

end FuzzCampaign
