import FuzzCampaign.Error
import FuzzCampaign.Text.Numeral
import FuzzCampaign.Text.Split

/-!
# Backtraces

A backtrace lists the frames of the call stack, the innermost first: a number, a colon and the
function, and below it the place in the source, if it is known.

* `StackFrame`, `StackFrame.text`;
* `Backtrace.parse`: the frames of a backtrace, the outermost first, without those of the runtime
  and of the worker itself;
* `Backtrace.dropHash`: a function without the hash at its end.
-/

namespace FuzzCampaign

/-- A frame of the call stack, with the values that were watched in it. -/
structure StackFrame where
  file : String
  line : UInt32
  function : String
  locals : List (String × String)
  deriving DecidableEq, Repr, Inhabited

namespace StackFrame

/-- A frame without a place. -/
def unknown (function : String) : StackFrame := ⟨"<unknown>", 0, function, []⟩

/-- The function and its place. -/
def text (f : StackFrame) : String := f.function ++ " (" ++ f.file ++ ":" ++ toString f.line ++ ")"

end StackFrame

namespace Backtrace

/-- How the functions of the runtime and of the worker begin. -/
def hiddenBeginnings : List String :=
  ["std::", "core::", "alloc::", "backtrace::", "rust_begin_unwind", "rust_panic", "__rust",
    "__libc", "_start", "__scrt", "chainfuzz::worker::"]

/-- Whether a function belongs to the runtime or to the worker. -/
def isMachinery (function : String) : Bool :=
  hiddenBeginnings.any (fun b => Text.beginsWith b.toList function.toList) ||
    (Text.beginsWith ['<'] function.toList && Text.occursIn " as core::".toList function.toList)

/-- A hexadecimal digit. -/
def isHexDigit (c : Char) : Bool := (Numeral.digitValue? c).isSome

/-- A function without the hash at its end: `::h` and sixteen hexadecimal digits. -/
def dropHash (function : List Char) : List Char :=
  match Text.rsplitOnceText [':', ':', 'h'] function with
  | some (head, hash) => if hash.length = 16 ∧ hash.all isHexDigit then head else function
  | none => function

/-- The file and line of a place that ends in a line and a column. -/
def place? (cs : List Char) : Option (List Char × UInt32) := do
  let (front, _) ← Text.rsplitOnce ':' cs
  let (file, line) ← Text.rsplitOnce ':' front
  return (file, UInt32.ofNat (← Numeral.readDecimal? word32 line))

/-- What a line of a backtrace says. -/
inductive Line
  /-- The place of the frame above. -/
  | place (text : List Char)
  /-- The function of a new frame. -/
  | function (text : List Char)
  | other

/-- What a line says. -/
def Line.of (line : List Char) : Line :=
  let cs := Text.trim line
  match Text.dropBeginning? ['a', 't', ' '] cs with
  | some text => .place text
  | none =>
    match Text.splitOnceText [':', ' '] cs with
    | some (index, text) =>
      if index ≠ [] ∧ index.all Char.isDigit then .function text else .other
    | none => .other

/-- Put a line to the frames above it, the latest first. -/
def addLine (frames : List StackFrame) (line : List Char) : List StackFrame :=
  match Line.of line with
  | .function text => StackFrame.unknown (String.ofList (dropHash text)) :: frames
  | .place text =>
    match frames, place? text with
    | f :: fs, some (file, line) => { f with file := String.ofList file, line } :: fs
    | fs, _ => fs
  | .other => frames

/-- The frames of a backtrace, the outermost first. -/
def parse (text : String) : List StackFrame :=
  ((Text.lines text.toList).foldl addLine []).filter fun f => !isMachinery f.function

end Backtrace

end FuzzCampaign
