import FuzzCampaign.Json.Fault
import FuzzCampaign.Json.Value
import FuzzCampaign.Text.Quoted

/-!
# Reading JSON of a known shape

A reader takes the levels of nesting that are left and a text, and gives a value and the rest of the
text, or the first fault in text order: what stands behind a fault is never looked at.

* `Json.Reader`, `Reader.run`: read a whole text;
* `Reader.text`, `unsigned`, `boolean`, `option`, `sequence`, `map`, `choice`: the shapes;
* `Reader.skip`: a value that is not used, of which only the form is checked;
* `Reader.value`: any value.
-/

namespace FuzzCampaign

namespace Json

/-- The levels of nesting, and one more, that a text may have. -/
def nestingLimit : Nat := 128

/-- A reader: from the levels of nesting left and a text, a value and the rest of the text. -/
abbrev Reader (α : Type) : Type := Nat → List Char → Except Fault (α × List Char)

/-! ## Words, strings and numbers -/

/-- The white space of JSON. -/
def isSpace (c : Char) : Bool := c = ' ' || c = '\n' || c = '\t' || c = '\r'

/-- A text without the white space at its beginning. -/
def dropSpace (cs : List Char) : List Char := cs.dropWhile isSpace

/-- Read the letters of a word. -/
def readWord : List Char → List Char → Except Fault (List Char)
  | [], cs => .ok cs
  | _ :: _, [] => .error (.before .eofInValue [])
  | w :: ws, c :: cs =>
    if w = c then readWord ws cs
    else .error (.peeked .expectedWord (c :: cs))

/-- The value of four hexadecimal digits and the rest of the text. -/
def readHex4 (cs : List Char) : Except Fault (Nat × List Char) :=
  if Utf8.size cs < 4 then .error (.before .eofInString [])
  else
    match cs with
    | a :: b :: c :: d :: r =>
      match Numeral.digitValue? a, Numeral.digitValue? b, Numeral.digitValue? c,
        Numeral.digitValue? d with
      | some a, some b, some c, some d => .ok (a * 4096 + b * 256 + c * 16 + d, r)
      | _, _, _, _ => .error ⟨.invalidEscape, .left (Utf8.size cs - 4)⟩
    | _ => .error ⟨.invalidEscape, .left (Utf8.size cs - 4)⟩

/-- Whether a unit is the second half of a surrogate pair. -/
def isLowSurrogate (n : Nat) : Bool := 0xDC00 ≤ n && n ≤ 0xDFFF

/-- Whether a unit is the first half of a surrogate pair. -/
def isHighSurrogate (n : Nat) : Bool := 0xD800 ≤ n && n ≤ 0xDBFF

/-- The character of an escape `\u`, which may need a second unit; `cs` stands behind the `u`. -/
def readUnit (cs : List Char) : Except Fault (Char × List Char) := do
  let (n, r) ← readHex4 cs
  if isLowSurrogate n then throw (.before .loneSurrogate r)
  else if isHighSurrogate n then
    match r with
    | [] => throw (.before .eofInString [])
    | '\\' :: r =>
      match r with
      | [] => throw (.before .eofInString [])
      | 'u' :: r =>
        let (n', r) ← readHex4 r
        if isLowSurrogate n' then
          return (Char.ofNat ((n - 0xD800) * 0x400 + (n' - 0xDC00) + 0x10000), r)
        else throw (.before .loneSurrogate r)
      | r => throw (.peeked .unfinishedSurrogate r)
    | r => throw (.peeked .unfinishedSurrogate r)
  else return (Char.ofNat n, r)

/-- The character of an escape with one letter. -/
def escaped? (c : Char) : Option Char :=
  match c with
  | '"' => some '"'
  | '\\' => some '\\'
  | '/' => some '/'
  | 'b' => some '\x08'
  | 'f' => some '\x0c'
  | 'n' => some '\n'
  | 'r' => some '\r'
  | 't' => some '\t'
  | _ => none

/-- The rest of a string behind its opening quote. The fuel is the length of the text. -/
def readString : Nat → List Char → Except Fault (List Char × List Char)
  | 0, cs => .error (.before .eofInString cs)
  | _ + 1, [] => .error (.before .eofInString [])
  | fuel + 1, c :: r =>
    if c = '"' then .ok ([], r)
    else if c = '\\' then
      match r with
      | [] => .error (.before .eofInString [])
      | 'u' :: r => do
        let (c, r) ← readUnit r
        let (s, r) ← readString fuel r
        return (c :: s, r)
      | e :: r =>
        match escaped? e with
        | some c => do
          let (s, r) ← readString fuel r
          return (c :: s, r)
        | none => .error (.peeked .invalidEscape (e :: r))
    else if c.toNat < 0x20 then .error (.before .controlCharacter r)
    else do
      let (s, r) ← readString fuel r
      return (c :: s, r)

/-- The string behind an opening quote. -/
def stringAfterQuote (cs : List Char) : Except Fault (String × List Char) := do
  let (s, r) ← readString (cs.length + 1) cs
  return (String.ofList s, r)

/-- The powers of ten that one multiplication or division takes. -/
def powerStep : Nat := 308

/-- Scale a float by a power of ten, at most `powerStep` places at a time. -/
def scale : Nat → Float → Int → Option Float
  | 0, f, _ => some f
  | fuel + 1, f, e =>
    if e.natAbs ≤ powerStep then
      let power := Float.ofScientific 1 false e.natAbs
      if 0 ≤ e then
        let g := f * power
        if g.isInf then none else some g
      else some (f / power)
    else if f == 0 then some f
    else if 0 ≤ e then none
    else scale fuel (f / 1e308) (e + 308)

/-- The number `significand * 10 ^ exponent` with a sign, unless it is out of range. -/
def floatOfParts (positive : Bool) (significand : Nat) (exponent : Int) : Option Number :=
  (scale (exponent.natAbs / 308 + 2) (Float.ofNat significand) exponent).map fun f =>
    .floating (if positive then f else -f).toBits

/-- The bound on the exponents that are told apart. -/
def exponentBound : Nat := 2147483647

/-- The digits at the beginning of a text, and the rest. -/
def spanDigits (cs : List Char) : List Char × List Char :=
  (cs.takeWhile Char.isDigit, cs.dropWhile Char.isDigit)

/-- Add digits to a significand as long as it fits into 64 bits; gives the digits left over. -/
def takeSignificand : Nat → List Char → Nat × List Char
  | n, [] => (n, [])
  | n, c :: r =>
    let n' := n * 10 + (c.toNat - '0'.toNat)
    if n' < word64 then takeSignificand n' r else (n, c :: r)

/-- The exponent behind its letter, for the number `significand * 10 ^ start`. -/
def readExponent (positive : Bool) (significand : Nat) (start : Int) (cs : List Char) :
    Except Fault (Number × List Char) :=
  let (up, cs) := match cs with
    | '+' :: r => (true, r)
    | '-' :: r => (false, r)
    | r => (true, r)
  match cs with
  | [] => .error (.before .eofInValue [])
  | c :: _ =>
    if c.isDigit then
      let (digits, rest) := spanDigits cs
      let size :=
        (digits.foldl (fun n d => min (exponentBound + 1) (n * 10 + (d.toNat - '0'.toNat))) 0)
      if exponentBound < size then
        if significand ≠ 0 ∧ up then .error (.before .numberOutOfRange rest)
        else .ok (.floating (if positive then (0.0 : Float) else -0.0).toBits, rest)
      else
        match floatOfParts positive significand (if up then start + size else start - size) with
        | some n => .ok (n, rest)
        | none => .error (.before .numberOutOfRange rest)
    else .error (.peeked .invalidNumber cs)

/-- What follows the digits of a number with a fraction or an exponent. -/
def finishFloat (positive : Bool) (significand : Nat) (exponent : Int) (cs : List Char) :
    Except Fault (Number × List Char) :=
  match cs with
  | 'e' :: r => readExponent positive significand exponent r
  | 'E' :: r => readExponent positive significand exponent r
  | cs =>
    match floatOfParts positive significand exponent with
    | some n => .ok (n, cs)
    | none => .error (.before .numberOutOfRange cs)

/-- The fraction behind its point. Digits that do not fit into the significand are dropped. -/
def readFraction (positive : Bool) (significand : Nat) (exponent : Int) (cs : List Char) :
    Except Fault (Number × List Char) :=
  let (digits, rest) := spanDigits cs
  match digits, rest with
  | [], [] => .error (.before .eofInValue [])
  | [], _ => .error (.peeked .invalidNumber rest)
  | _, _ =>
    let (significand, left) := takeSignificand significand digits
    finishFloat positive significand (exponent - (digits.length - left.length : Nat)) rest

/-- The number behind its sign. -/
def readNumber (positive : Bool) (cs : List Char) : Except Fault (Number × List Char) :=
  let (digits, rest) := spanDigits cs
  match digits, cs with
  | [], [] => .error (.before .eofInValue [])
  | [], c :: r => .error (.peeked .invalidNumber (c :: r))
  | '0' :: _ :: _, _ => .error (.peeked .invalidNumber (cs.drop 1))
  | _, _ =>
    let (significand, left) := takeSignificand 0 digits
    match rest with
    | '.' :: r => readFraction positive significand left.length r
    | 'e' :: r => readExponent positive significand left.length r
    | 'E' :: r => readExponent positive significand left.length r
    | rest =>
      if left ≠ [] then finishFloat positive significand left.length rest
      else if positive then .ok (.unsigned (UInt64.ofNat significand), rest)
      else if significand = 0 ∨ Nat.pow 2 63 < significand then
        .ok (.floating (-(Float.ofNat significand)).toBits, rest)
      else .ok (.negative (UInt64.ofNat significand), rest)

/-! ## Values of the wrong shape -/

/-- The wording of a number that is not expected. -/
def Number.shown : Number → String
  | .unsigned n => s!"integer `{n}`"
  | .negative n => s!"integer `-{n}`"
  | .floating bits => s!"floating point `{String.ofList (floatText bits)}`"

/-- The fault of a value that is not of the shape `expected`; `cs` begins with the value. -/
def unexpected (expected : String) (cs : List Char) : Fault :=
  let fault (shown : String) (rest : List Char) : Fault :=
    .before (.shape s!"invalid type: {shown}, expected {expected}") rest
  match cs with
  | 'n' :: r =>
    match readWord ['u', 'l', 'l'] r with
    | .ok rest => fault "null" rest
    | .error e => e
  | 't' :: r =>
    match readWord ['r', 'u', 'e'] r with
    | .ok rest => fault "boolean `true`" rest
    | .error e => e
  | 'f' :: r =>
    match readWord ['a', 'l', 's', 'e'] r with
    | .ok rest => fault "boolean `false`" rest
    | .error e => e
  | '-' :: r =>
    match readNumber false r with
    | .ok (n, rest) => fault n.shown rest
    | .error e => e
  | '"' :: r =>
    match stringAfterQuote r with
    | .ok (s, rest) => fault s!"string {Quoted.quote s}" rest
    | .error e => e
  | '[' :: _ => fault "sequence" cs
  | '\x7b' :: _ => fault "map" cs
  | c :: _ =>
    if c.isDigit then
      match readNumber true cs with
      | .ok (n, rest) => fault n.shown rest
      | .error e => e
    else .peeked .expectedValue cs
  | [] => .peeked .expectedValue cs

namespace Reader

/-! ## Scalars -/

/-- A string. -/
def textFor (expected : String) : Reader String := fun _ cs =>
  match dropSpace cs with
  | [] => .error (.before .eofInValue [])
  | '"' :: r => stringAfterQuote r
  | cs => .error (unexpected expected cs)

/-- A string. -/
def text : Reader String := textFor "a string"

/-- A string that `parse` takes; its refusal is a fault of shape. -/
def parsed {α : Type} (parse : String → Except String α) : Reader α := fun depth cs =>
  match text depth cs with
  | .error e => .error e
  | .ok (s, r) =>
    match parse s with
    | .ok a => .ok (a, r)
    | .error message => .error (.ofShape message r)

/-- A truth value. -/
def boolean : Reader Bool := fun _ cs =>
  match dropSpace cs with
  | [] => .error (.before .eofInValue [])
  | 't' :: r => (readWord ['r', 'u', 'e'] r).map (true, ·)
  | 'f' :: r => (readWord ['a', 'l', 's', 'e'] r).map (false, ·)
  | cs => .error (unexpected "a boolean" cs)

/-- An integer of a number that was read. -/
def integer (bound : Nat) (expected : String) (n : Number) (rest : List Char) :
    Except Fault (Nat × List Char) :=
  let fault (kind : String) : Fault :=
    .before (.shape s!"invalid {kind}: {n.shown}, expected {expected}") rest
  match n with
  | .unsigned u => if u.toNat < bound then .ok (u.toNat, rest) else .error (fault "value")
  | .negative _ => .error (fault "value")
  | .floating _ => .error (fault "type")

/-- An unsigned integer below `bound`. -/
def unsigned (bound : Nat) (expected : String) : Reader Nat := fun _ cs =>
  match dropSpace cs with
  | [] => .error (.before .eofInValue [])
  | '-' :: r =>
    match readNumber false r with
    | .ok (n, rest) => integer bound expected n rest
    | .error e => .error e
  | c :: r =>
    if c.isDigit then
      match readNumber true (c :: r) with
      | .ok (n, rest) => integer bound expected n rest
      | .error e => .error e
    else .error (unexpected expected (c :: r))

/-- The value `null`, which carries nothing. -/
def unit : Reader Unit := fun _ cs =>
  match dropSpace cs with
  | [] => .error (.before .eofInValue [])
  | 'n' :: r => (readWord ['u', 'l', 'l'] r).map ((), ·)
  | cs => .error (unexpected "unit" cs)

/-- `null`, or a value. -/
def option {α : Type} (inner : Reader α) : Reader (Option α) := fun depth cs =>
  match dropSpace cs with
  | 'n' :: r => (readWord ['u', 'l', 'l'] r).map (none, ·)
  | cs => (inner depth cs).map fun p => (some p.1, p.2)

/-! ## Lists and objects -/

/-- Whether a list goes on: the text of its next item, or its rest at the closing bracket. -/
def nextItem (first : Bool) (cs : List Char) : Except Fault (Bool × List Char) :=
  match dropSpace cs with
  | [] => .error (.before .eofInList [])
  | ']' :: r => .ok (false, ']' :: r)
  | ',' :: r =>
    if first then .ok (true, ',' :: r)
    else
      match dropSpace r with
      | [] => .error (.before .eofInValue [])
      | ']' :: r => .error (.peeked .trailingComma (']' :: r))
      | r => .ok (true, r)
  | cs => if first then .ok (true, cs) else .error (.peeked .expectedListCommaOrEnd cs)

/-- The end of a list of which all items asked for were read. -/
def endList (cs : List Char) : Except Fault (List Char) :=
  match dropSpace cs with
  | ']' :: r => .ok r
  | ',' :: r =>
    match dropSpace r with
    | ']' :: r => .error (.peeked .trailingComma (']' :: r))
    | r => .error (.peeked .trailingCharacters r)
  | [] => .error (.before .eofInList [])
  | cs => .error (.peeked .trailingCharacters cs)

/-- Whether an object goes on: the text behind the quote of its next key, or its rest at the closing
brace. -/
def nextKey (first : Bool) (cs : List Char) : Except Fault (Bool × List Char) :=
  match dropSpace cs with
  | [] => .error (.before .eofInObject [])
  | '\x7d' :: r => .ok (false, '\x7d' :: r)
  | ',' :: r =>
    if first then .error (.peeked .keyMustBeString (',' :: r))
    else
      match dropSpace r with
      | [] => .error (.before .eofInValue [])
      | '"' :: r => .ok (true, r)
      | '\x7d' :: r => .error (.peeked .trailingComma ('\x7d' :: r))
      | r => .error (.peeked .keyMustBeString r)
  | '"' :: r =>
    if first then .ok (true, r) else .error (.peeked .expectedObjectCommaOrEnd ('"' :: r))
  | cs =>
    .error (.peeked (if first then .keyMustBeString else .expectedObjectCommaOrEnd) cs)

/-- The colon behind a key. -/
def colon (cs : List Char) : Except Fault (List Char) :=
  match dropSpace cs with
  | ':' :: r => .ok r
  | [] => .error (.before .eofInObject [])
  | cs => .error (.peeked .expectedColon cs)

/-- The end of an object. -/
def endObject (cs : List Char) : Except Fault (List Char) :=
  match dropSpace cs with
  | '\x7d' :: r => .ok r
  | ',' :: r => .error (.peeked .trailingComma (',' :: r))
  | [] => .error (.before .eofInObject [])
  | cs => .error (.peeked .trailingCharacters cs)

/-- How a list or an object ends: its closing bracket, and where a reader that gave up goes on. -/
structure Bracket where
  close : List Char → Except Fault (List Char)
  goOn : List Char → List Char

/-- The end of a list. -/
def listEnd : Bracket where
  close := endList
  goOn cs :=
    match dropSpace cs with
    | ']' :: r => r
    | ',' :: r => dropSpace r
    | r => r

/-- The end of an object. -/
def objectEnd : Bracket where
  close := endObject
  goOn cs :=
    match dropSpace cs with
    | '\x7d' :: r => r
    | r => r

/-- Enter a list or an object, one level of nesting deeper; `cs` begins with its bracket. -/
def enter {α : Type} (depth : Nat) (cs : List Char) (bracket : Bracket)
    (inner : Reader α) : Except Fault (α × List Char) :=
  match depth with
  | 0 | 1 => .error (.peeked .nestingTooDeep cs)
  | depth + 1 =>
    match inner depth (cs.drop 1) with
    | .ok (a, rest) => (bracket.close rest).map (a, ·)
    | .error fault => .error (fault.settle bracket.goOn)

/-- The items of a list, each read by `item`. The fuel is the length of the text. -/
def items {α : Type} (item : Reader α) (depth : Nat) :
    Nat → Bool → List α → List Char → Except Fault (List α × List Char)
  | 0, _, _, _ => .error (.before .eofInList [])
  | fuel + 1, first, acc, cs =>
    match nextItem first cs with
    | .error e => .error e
    | .ok (false, rest) => .ok (acc.reverse, rest)
    | .ok (true, rest) =>
      match item depth rest with
      | .error e => .error e
      | .ok (a, rest) => items item depth fuel false (a :: acc) rest

/-- A list. -/
def sequence {α : Type} (item : Reader α) : Reader (List α) := fun depth cs =>
  match dropSpace cs with
  | [] => .error (.before .eofInValue [])
  | '[' :: r => enter depth ('[' :: r) listEnd fun d cs => items item d (cs.length + 1) true [] cs
  | cs => .error (unexpected "a sequence" cs)

/-- The entries of an object: `key` takes the text of a key, `entry` reads a value and joins it to
what was read so far. The fuel is the length of the text. -/
def entries {σ κ : Type} (key : σ → String → Except String κ) (entry : σ → κ → Reader σ)
    (depth : Nat) : Nat → Bool → σ → List Char → Except Fault (σ × List Char)
  | 0, _, _, _ => .error (.before .eofInObject [])
  | fuel + 1, first, acc, cs =>
    match nextKey first cs with
    | .error e => .error e
    | .ok (false, rest) => .ok (acc, rest)
    | .ok (true, rest) =>
      match stringAfterQuote rest with
      | .error e => .error e
      | .ok (name, rest) =>
        match key acc name with
        | .error message => .error (.ofShape message rest)
        | .ok k =>
          match colon rest with
          | .error e => .error e
          | .ok rest =>
            match entry acc k depth rest with
            | .error e => .error e
            | .ok (acc, rest) => entries key entry depth fuel false acc rest

/-- A map from keys that `key` takes; a later entry replaces an earlier one of the same key. -/
def map {κ α : Type} [Ord κ] [Std.TransOrd κ] [Std.LawfulEqOrd κ]
    (key : String → Except String κ) (value : Reader α) : Reader (SortedMap κ α) := fun depth cs =>
  match dropSpace cs with
  | [] => .error (.before .eofInValue [])
  | '\x7b' :: r =>
    enter depth ('\x7b' :: r) objectEnd fun d cs =>
      entries (fun _ name => key name)
        (fun m k d cs => (value d cs).map fun p => (m.insert k p.1, p.2)) d (cs.length + 1) true
        .empty cs
  | cs => .error (unexpected "a map" cs)

/-- One of some names, written as a string or as an object with that one key and the value
`null`. -/
def choice {α : Type} (names : List (String × α)) : Reader α := fun depth cs =>
  let pick (name : String) (rest : List Char) : Except Fault α :=
    match names.find? fun p => p.1 = name with
    | some p => .ok p.2
    | none =>
      let known := ", ".intercalate (names.map fun p => "`" ++ p.1 ++ "`")
      .error (.before (.shape s!"unknown variant `{name}`, expected one of {known}") rest)
  match dropSpace cs with
  | [] => .error (.before .eofInValue [])
  | '"' :: r =>
    match stringAfterQuote r with
    | .error e => .error e
    | .ok (name, rest) => (pick name rest).map (·, rest)
  | '\x7b' :: r =>
    match depth with
    | 0 | 1 => .error (.peeked .nestingTooDeep ('\x7b' :: r))
    | depth + 1 =>
      match textFor "variant identifier" depth r with
      | .error e => .error e
      | .ok (name, rest) =>
        match pick name rest, colon rest with
        | .error e, _ => .error e
        | _, .error e => .error e
        | .ok a, .ok rest =>
          match unit depth rest with
          | .error e => .error e
          | .ok (_, rest) =>
            match dropSpace rest with
            | '\x7d' :: rest => .ok (a, rest)
            | [] => .error (.before .eofInObject [])
            | rest => .error (.before .expectedValue rest)
  | cs => .error (.peeked .expectedValue cs)

/-! ## Values of any shape -/

/-- The rest of a string that is not used, behind its opening quote. -/
def skipString : Nat → List Char → Except Fault (List Char)
  | 0, cs => .error (.before .eofInString cs)
  | _ + 1, [] => .error (.before .eofInString [])
  | fuel + 1, c :: r =>
    if c = '"' then .ok r
    else if c = '\\' then
      match r with
      | [] => .error (.before .eofInString [])
      | 'u' :: r => do
        let (_, r) ← readHex4 r
        skipString fuel r
      | e :: r =>
        if (escaped? e).isSome then skipString fuel r
        else .error (.peeked .invalidEscape (e :: r))
    else if c.toNat < 0x20 then .error (.before .controlCharacter r)
    else skipString fuel r

/-- At least one digit behind an exponent's letter. -/
def skipExponent (cs : List Char) : Except Fault (List Char) :=
  let cs := match cs with
    | '+' :: r => r
    | '-' :: r => r
    | r => r
  match spanDigits cs with
  | ([], rest) => .error (.peeked .invalidNumber rest)
  | (_, rest) => .ok rest

/-- A number that is not used, behind its sign. -/
def skipNumber (cs : List Char) : Except Fault (List Char) :=
  match spanDigits cs with
  | ([], rest) => .error (.peeked .invalidNumber rest)
  | ('0' :: _ :: _, _) => .error (.peeked .invalidNumber (cs.drop 1))
  | (_, '.' :: r) =>
    match spanDigits r with
    | ([], rest) => .error (.peeked .invalidNumber rest)
    | (_, 'e' :: r) => skipExponent r
    | (_, 'E' :: r) => skipExponent r
    | (_, rest) => .ok rest
  | (_, 'e' :: r) => skipExponent r
  | (_, 'E' :: r) => skipExponent r
  | (_, rest) => .ok rest

/-- A value that is not used: only its form is checked, not the range of its numbers nor the
pairing of its surrogates. -/
def skip : Reader Unit
  | 0, cs => .error (.peeked .nestingTooDeep cs)
  | depth + 1, cs =>
    match dropSpace cs with
    | [] => .error (.before .eofInValue [])
    | 'n' :: r => (readWord ['u', 'l', 'l'] r).map ((), ·)
    | 't' :: r => (readWord ['r', 'u', 'e'] r).map ((), ·)
    | 'f' :: r => (readWord ['a', 'l', 's', 'e'] r).map ((), ·)
    | '-' :: r => (skipNumber r).map ((), ·)
    | '"' :: r => (skipString (r.length + 1) r).map ((), ·)
    | '[' :: r =>
      enter (depth + 1) ('[' :: r) listEnd fun _ cs =>
        (items (fun _ cs => skip depth cs) depth (cs.length + 1) true [] cs).map fun p => ((), p.2)
    | '\x7b' :: r =>
      enter (depth + 1) ('\x7b' :: r) objectEnd fun _ cs =>
        entries (fun _ _ => .ok ()) (fun _ _ _ cs => skip depth cs) depth (cs.length + 1) true ()
          cs
    | c :: r =>
      if c.isDigit then (skipNumber (c :: r)).map ((), ·)
      else .error (.peeked .expectedValue (c :: r))

/-- Any value; the keys of its objects come out in increasing order, the last of equal keys wins. -/
def value : Reader Value
  | 0, cs => .error (.peeked .nestingTooDeep cs)
  | depth + 1, cs =>
    match dropSpace cs with
    | [] => .error (.before .eofInValue [])
    | 'n' :: r => (readWord ['u', 'l', 'l'] r).map (.null, ·)
    | 't' :: r => (readWord ['r', 'u', 'e'] r).map (.bool true, ·)
    | 'f' :: r => (readWord ['a', 'l', 's', 'e'] r).map (.bool false, ·)
    | '-' :: r => (readNumber false r).map fun p => (.number p.1, p.2)
    | '"' :: r => (stringAfterQuote r).map fun p => (.text p.1, p.2)
    | '[' :: r =>
      (enter (depth + 1) ('[' :: r) listEnd fun _ cs =>
        items (fun _ cs => value depth cs) depth (cs.length + 1) true [] cs).map
        fun p => (.list p.1, p.2)
    | '\x7b' :: r =>
      (enter (depth + 1) ('\x7b' :: r) objectEnd fun _ cs =>
        entries (fun _ name => .ok name)
          (fun (m : SortedMap String Value) name _ cs =>
            (value depth cs).map fun p => (m.insert name p.1, p.2))
          depth (cs.length + 1) true .empty cs).map
        fun p => (.object p.1.toList, p.2)
    | c :: r =>
      if c.isDigit then (readNumber true (c :: r)).map fun p => (.number p.1, p.2)
      else .error (.peeked .expectedValue (c :: r))

/-! ## Whole texts -/

/-- Read a whole text, behind which only white space may stand. -/
def run {α : Type} (reader : Reader α) (text : String) : Except JsonError α :=
  let cs := text.toList
  match reader nestingLimit cs with
  | .error fault => .error (fault.toError cs)
  | .ok (a, rest) =>
    match dropSpace rest with
    | [] => .ok a
    | rest => .error ((Fault.peeked .trailingCharacters rest).toError cs)

end Reader

end Json

end FuzzCampaign
