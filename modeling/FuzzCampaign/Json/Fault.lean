import FuzzCampaign.Text.Utf8

/-!
# Faults of JSON text

Why a text is refused as JSON, or as JSON of the shape asked for, and where.

* `Json.Cause`: the causes, with their wording (`Cause.message`) and class (`Cause.category`);
* `Json.Fault`: a cause and its place, counted from the end of the text;
* `Json.JsonError`: a cause with its line and column, both counted from the start of the text.
-/

namespace FuzzCampaign

namespace Json

/-- Why a text is refused. -/
inductive Cause
  | eofInList
  | eofInObject
  | eofInString
  | eofInValue
  | expectedColon
  | expectedListCommaOrEnd
  | expectedObjectCommaOrEnd
  | expectedWord
  | expectedValue
  | invalidEscape
  | invalidNumber
  | numberOutOfRange
  | controlCharacter
  | keyMustBeString
  | loneSurrogate
  | unfinishedSurrogate
  | trailingComma
  | trailingCharacters
  | nestingTooDeep
  /-- The text is JSON so far, but not of the shape asked for. -/
  | shape (message : String)
  deriving DecidableEq, Repr

/-- The classes of causes: the text is no JSON, it ends too early, or it has the wrong shape. -/
inductive Category
  | malformed
  | eof
  | data
  deriving DecidableEq, Repr

/-- The class of a cause. -/
def Cause.category : Cause → Category
  | .eofInList | .eofInObject | .eofInString | .eofInValue => .eof
  | .shape _ => .data
  | _ => .malformed

/-- The wording of a cause. -/
def Cause.message : Cause → String
  | .eofInList => "EOF while parsing a list"
  | .eofInObject => "EOF while parsing an object"
  | .eofInString => "EOF while parsing a string"
  | .eofInValue => "EOF while parsing a value"
  | .expectedColon => "expected `:`"
  | .expectedListCommaOrEnd => "expected `,` or `]`"
  | .expectedObjectCommaOrEnd => "expected `,` or `\x7d`"
  | .expectedWord => "expected ident"
  | .expectedValue => "expected value"
  | .invalidEscape => "invalid escape"
  | .invalidNumber => "invalid number"
  | .numberOutOfRange => "number out of range"
  | .controlCharacter => "control character (\\u0000-\\u001F) found while parsing a string"
  | .keyMustBeString => "key must be a string"
  | .loneSurrogate => "lone leading surrogate in hex escape"
  | .unfinishedSurrogate => "unexpected end of hex escape"
  | .trailingComma => "trailing comma"
  | .trailingCharacters => "trailing characters"
  | .nestingTooDeep => "recursion limit exceeded"
  | .shape message => message

/-- Where a fault stands: at the place behind which so many bytes are left, or still open, to be
settled by the reader of the list or object around the text `rest`. -/
inductive Place
  | left (bytes : Nat)
  | unsettled (rest : List Char)
  deriving DecidableEq, Repr

/-- A cause and its place. -/
structure Fault where
  cause : Cause
  place : Place
  deriving DecidableEq, Repr

/-- A fault just before the text `cs`. -/
def Fault.before (cause : Cause) (cs : List Char) : Fault := ⟨cause, .left (Utf8.size cs)⟩

/-- A fault at the first byte of the text `cs`, if there is one. -/
def Fault.peeked (cause : Cause) (cs : List Char) : Fault := ⟨cause, .left (Utf8.size cs - 1)⟩

/-- A text of the wrong shape, found before `cs`. -/
def Fault.ofShape (message : String) (cs : List Char) : Fault := ⟨.shape message, .unsettled cs⟩

/-- The fault with its place settled: `goOn` says where the reader around it goes on to. -/
def Fault.settle (goOn : List Char → List Char) (f : Fault) : Fault :=
  match f.place with
  | .left _ => f
  | .unsettled cs => .before f.cause (goOn cs)

/-- A refused text: the cause and its line and column. -/
structure JsonError where
  cause : Cause
  line : Nat
  column : Nat
  deriving DecidableEq, Repr

/-- The line and column after `n` bytes of a text, from line `line` and column `column` on. -/
def lineAndColumn (line column : Nat) : Nat → List Char → Nat × Nat
  | _, [] => (line, column)
  | n, c :: r =>
    if n < c.utf8Size then (line, column + n)
    else if c = '\n' then lineAndColumn (line + 1) 0 (n - 1) r
    else lineAndColumn line (column + c.utf8Size) (n - c.utf8Size) r

/-- The error of a fault found in `text`; an unsettled place is no place. -/
def Fault.toError (f : Fault) (text : List Char) : JsonError :=
  match f.place with
  | .left bytes =>
    let place := lineAndColumn 1 0 (Utf8.size text - bytes) text
    ⟨f.cause, place.1, place.2⟩
  | .unsettled _ => ⟨f.cause, 0, 0⟩

/-- The wording of a refusal, with its place if it has one. -/
def JsonError.message (e : JsonError) : String :=
  if e.line = 0 then e.cause.message
  else s!"{e.cause.message} at line {e.line} column {e.column}"

end Json

end FuzzCampaign
