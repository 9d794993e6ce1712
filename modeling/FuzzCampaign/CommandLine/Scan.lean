import FuzzCampaign.CommandLine.Argument
import FuzzCampaign.Text.Split

/-!
# Reading a command line

A command line is read word by word, one level for each command; what the user gave at each level is
kept.

* `Word`: the kinds of words;
* `Scan`: reading the words of one level;
* `Level`: what the user gave at a level;
* `CommandShape.parse`: reading all words.
-/

namespace FuzzCampaign

/-! ## Words -/

/-- The kinds of words: two dashes, a name with or without a value, letters, or anything else. -/
inductive Word
  | dashes
  | name (name : String) (value? : Option String)
  | letters (letters : List Char)
  | plain
  deriving DecidableEq, Repr

/-- The kind of a word. -/
def Word.of (w : String) : Word :=
  match w.toList with
  | ['-', '-'] => .dashes
  | '-' :: '-' :: r =>
    match Text.splitOnce '=' r with
    | some (key, value) => .name (String.ofList key) (some (String.ofList value))
    | none => .name (String.ofList r) none
  | '-' :: c :: r => .letters (c :: r)
  | _ => .plain

/-! ## One level -/

/-- The state of reading a level. -/
structure Scan where
  /-- What the user gave so far. -/
  given : List (String × List ArgumentValue)
  /-- The argument that is being given, with the texts of its values. -/
  open? : Option (String × List String)
  /-- Whether the next word is a value of that argument. -/
  wantsValue : Bool
  /-- Whether all words from here on are given by position. -/
  plainOnly : Bool
  /-- How many arguments by position are complete. -/
  filled : Nat

namespace Scan

/-- Nothing is read yet. -/
def start : Scan := ⟨[], none, false, false, 0⟩

/-- The values of an argument, if it is given. -/
def values? (s : Scan) (name : String) : Option (List ArgumentValue) :=
  (s.given.find? fun g => g.1 = name).map (·.2)

/-- Set the values of an argument. -/
def put (s : Scan) (name : String) (values : List ArgumentValue) : Scan :=
  { s with given := s.given.filter (fun g => g.1 ≠ name) ++ [(name, values)] }

/-- How often a counted flag can be given. -/
def maxFlagCount : Nat := 255

/-- The values of a counted flag that is given once more. -/
def countOn : Option (List ArgumentValue) → List ArgumentValue
  | some [.number n] => [.number (min maxFlagCount (n + 1))]
  | _ => [.number 1]

/-- Give an argument with the texts of its values. -/
def give (c : CommandShape) (s : Scan) (a : Argument) (texts : List String) :
    Except UsageError Scan :=
  match a.form with
  | .help => .error .help
  | .version => .error (.version c.title)
  | .counted => .ok (s.put a.name (countOn (s.values? a.name)))
  | .flag => if (s.values? a.name).isSome then .error .repeatedArgument else .ok (s.put a.name [])
  | .once kind =>
    if texts = [] then .error .invalidValue
    else if (s.values? a.name).isSome then .error .repeatedArgument
    else do return s.put a.name (← texts.mapM kind.read)
  | .repeated kind =>
    if texts = [] then .error .invalidValue
    else do return s.put a.name ((s.values? a.name).getD [] ++ (← texts.mapM kind.read))

/-- Complete the argument that is being given. -/
def settle (c : CommandShape) (s : Scan) : Except UsageError Scan :=
  match s.open? with
  | none => .ok s
  | some (name, texts) =>
    let s := { s with open? := none, wantsValue := false }
    match c.argument? name with
    | none => .ok s
    | some a => give c s a texts

/-- Begin to give an argument whose value is the next word. -/
def begin (c : CommandShape) (s : Scan) (a : Argument) : Except UsageError Scan := do
  let s ← settle c s
  return { s with open? := some (a.name, []), wantsValue := true }

/-- Give an argument at once. -/
def giveNow (c : CommandShape) (s : Scan) (a : Argument) (texts : List String) :
    Except UsageError Scan := do
  give c (← settle c s) a texts

/-- A name, with or without a value. -/
def byName (c : CommandShape) (s : Scan) (name : String) (value? : Option String) :
    Except UsageError Scan :=
  match c.named.find? fun a => a.name = name with
  | none => .error .unknownArgument
  | some a =>
    match a.form.kind?, value? with
    | some _, some value => giveNow c s a [value]
    | some _, none => begin c s a
    | none, some _ => .error .unwantedValue
    | none, none => giveNow c s a []

/-- Letters, of which one that takes a value ends the word. -/
def byLetters (c : CommandShape) : Scan → List Char → Except UsageError Scan
  | s, [] => .ok s
  | s, l :: r =>
    match c.named.find? fun a => a.letter? = some l with
    | none => .error .unknownArgument
    | some a =>
      match a.form.kind?, r with
      | none, r => do byLetters c (← giveNow c s a []) r
      | some _, [] => begin c s a
      | some _, '=' :: value => giveNow c s a [String.ofList value]
      | some _, value => giveNow c s a [String.ofList value]

/-- Why a word that no argument takes is refused. -/
def stray (c : CommandShape) (s : Scan) (w : String) : UsageError :=
  if c.subcommands.isEmpty || (s.plainOnly && c.isSubcommand w) then .unknownArgument
  else .unknownSubcommand

/-- A word by position. -/
def byPosition (c : CommandShape) (s : Scan) (w : String) : Except UsageError Scan :=
  match c.positional[s.filled]? with
  | none => .error (stray c s w)
  | some a =>
    match a.form with
    | .repeated _ =>
      match s.open? with
      | some (name, texts) =>
        if name = a.name then .ok { s with open? := some (name, texts ++ [w]) }
        else do return { (← settle c s) with open? := some (a.name, [w]) }
      | none => .ok { s with open? := some (a.name, [w]) }
    | _ => do return { (← settle c s) with open? := some (a.name, [w]), filled := s.filled + 1 }

/-- A value of the argument that is being given, or a word by position. -/
def plain (c : CommandShape) (s : Scan) (w : String) : Except UsageError Scan :=
  match s.wantsValue, s.open? with
  | true, some (name, texts) =>
    .ok { s with open? := some (name, texts ++ [w]), wantsValue := false }
  | _, _ => byPosition c s w

/-- A word that is no subcommand. -/
def word (c : CommandShape) (s : Scan) (w : String) : Except UsageError Scan :=
  if s.plainOnly then byPosition c s w
  else
    match Word.of w with
    | .dashes => .ok { s with plainOnly := true }
    | .name name value? => byName c s name value?
    | .letters letters => byLetters c s letters
    | .plain => plain c s w

/-- Whether a word can be a subcommand here. -/
def takesSubcommand (s : Scan) : Bool := !s.plainOnly && !s.wantsValue

/-- Read the words of a level, up to a subcommand; gives the latter with the words after it. -/
def words (c : CommandShape) :
    Scan → List String → Except UsageError (Scan × Option (CommandShape × List String))
  | s, [] => .ok (s, none)
  | s, w :: ws =>
    if s.takesSubcommand && c.isSubcommand w then
      match c.subcommand? w with
      | some sub => .ok (s, some (sub, ws))
      | none => .error (c.helpOn ws)
    else do words c (← word c s w) ws

/-- Whether a level that has been read is complete; `hasSubcommand` says whether one follows. -/
def check (c : CommandShape) (s : Scan) (hasSubcommand : Bool) : Except UsageError Unit :=
  if !c.subcommands.isEmpty && !hasSubcommand then
    .error (if s.given.isEmpty then .helpForNothing else .missingSubcommand)
  else if c.required.all fun name => (s.values? name).isSome then .ok ()
  else .error .missingArgument

end Scan

/-! ## All levels -/

/-- What the user gave to one command. -/
structure Level where
  command : String
  given : List (String × List ArgumentValue)
  deriving DecidableEq

namespace Level

/-- The values of an argument; none if it is not given. -/
def values (l : Level) (name : String) : List ArgumentValue :=
  ((l.given.find? fun g => g.1 = name).map (·.2)).getD []

/-- Whether an argument is given. -/
def has (l : Level) (name : String) : Bool := l.given.any fun g => g.1 = name

/-- The texts given as an argument. -/
def texts (l : Level) (name : String) : List String :=
  (l.values name).filterMap fun | .text s => some s | _ => none

/-- The text given as an argument. -/
def text? (l : Level) (name : String) : Option String := (l.texts name).head?

/-- The number given as an argument. -/
def number? (l : Level) (name : String) : Option Nat :=
  (l.values name).findSome? fun | .number n => some n | _ => none

/-- The seeds given as an argument. -/
def seeds (l : Level) (name : String) : List Seed :=
  (l.values name).filterMap fun | .seed s => some s | _ => none

/-- The network given as an argument. -/
def network? (l : Level) (name : String) : Option Network :=
  (l.values name).findSome? fun | .network n => some n | _ => none

/-- The colours given as an argument. -/
def colour? (l : Level) (name : String) : Option ColourChoice :=
  (l.values name).findSome? fun | .colour c => some c | _ => none

end Level

namespace CommandShape

/-- Read the words of a command and of the subcommands below it. The fuel is the number of words. -/
def parseFrom : Nat → CommandShape → List String → Except UsageError (List Level)
  | 0, _, _ => .ok []
  | fuel + 1, c, ws => do
    let (s, sub?) ← Scan.words c .start ws
    let below ← match sub? with
      | some (sub, rest) => parseFrom fuel sub rest
      | none => pure []
    let s ← Scan.settle c s
    Scan.check c s sub?.isSome
    return ⟨c.name, s.given⟩ :: below

/-- Read a command line, without the name of the program. -/
def parse (c : CommandShape) (ws : List String) : Except UsageError (List Level) :=
  parseFrom (ws.length + 1) c ws

end CommandShape

end FuzzCampaign
