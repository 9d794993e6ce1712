import FuzzCampaign.Link.Message
import FuzzCampaign.Text.Utf8

/-!
# The binary form of messages

Numbers have a fixed number of bytes, the low byte first. Texts, lists and maps are preceded by
their length in eight bytes, alternatives by their number in four, optional values by one byte.
Positions travel as texts.

* `Binary.DecodeError`: why bytes are no message;
* `Binary.Decoder`: from bytes to a value and the rest of the bytes;
* `Binary.encodeWorker`, `Binary.decodeWorker`: what workers send;
* `Binary.encodeCommand`, `Binary.decodeCommand`: what the orchestrator sends.
-/

namespace FuzzCampaign

namespace Binary

/-- Why bytes are no message. -/
inductive DecodeError
  /-- The bytes of a text are missing. -/
  | shortText
  /-- The bytes of a number are missing. -/
  | shortNumber
  | unknownVariant (found count : Nat)
  | invalidBool (found : Nat)
  | invalidOption (found : Nat)
  | notText (error : Utf8.DecodeError)
  | invalidValue (message : String)
  deriving DecidableEq, Repr

/-- The wording of a refusal. -/
def DecodeError.message : DecodeError → String
  | .shortText => "io error: "
  | .shortNumber => "io error: unexpected end of file"
  | .unknownVariant found count =>
    s!"invalid value: integer `{found}`, expected variant index 0 <= i < {count}"
  | .invalidBool found => s!"invalid u8 while decoding bool, expected 0 or 1, found {found}"
  | .invalidOption found => s!"tag for enum is not valid, found {found}"
  | .notText error => s!"string is not valid utf8: {error.message}"
  | .invalidValue message => message

/-! ## Encoding -/

/-- A number in `width` bytes, the low byte first. -/
def number : Nat → Nat → List UInt8
  | 0, _ => []
  | width + 1, n => UInt8.ofNat (n % 256) :: number width (n / 256)

/-- A length in eight bytes. -/
def length (n : Nat) : List UInt8 := number 8 n

/-- The number of an alternative. -/
def variant (n : Nat) : List UInt8 := number 4 n

/-- A text after its length. -/
def text (s : String) : List UInt8 :=
  let bytes := Utf8.encode s.toList
  length bytes.length ++ bytes

/-- A list after its length. -/
def list {α : Type} (item : α → List UInt8) (items : List α) : List UInt8 :=
  length items.length ++ items.flatMap item

/-- An optional value. -/
def option {α : Type} (value : α → List UInt8) : Option α → List UInt8
  | none => [0]
  | some a => 1 :: value a

/-- A function and its hits. -/
def hits (f : FunctionHits) : List UInt8 := text f.name ++ number 8 f.hits.toNat

/-- The positions of a file. -/
def fileCoverage (positions : FileCoverage) : List UInt8 :=
  list (fun e => text e.1.text ++ hits e.2) positions.toList

/-- Coverage. -/
def coverage (c : Coverage) : List UInt8 := list (fun e => text e.1 ++ fileCoverage e.2) c.toList

/-- A snapshot. -/
def snapshot (s : Snapshot) : List UInt8 := coverage s.full ++ coverage s.perTransaction

/-- A frame of a call stack. -/
def stackFrame (f : StackFrame) : List UInt8 :=
  text f.file ++ number 4 f.line.toNat ++ text f.function ++
    list (fun l => text l.1 ++ text l.2) f.locals

/-- The number of an origin. -/
def origin : Origin → List UInt8
  | .testBody => variant 0
  | .harness => variant 1

/-- An envelope. -/
def envelope (e : Envelope) : List UInt8 :=
  number 2 e.version.toNat ++ text e.kind ++ text e.message ++ origin e.origin ++
    list stackFrame e.frames

/-- What a worker sends. -/
def encodeWorker : Dispatch → List UInt8
  | .hello index version => variant 0 ++ number 8 index.toNat ++ number 2 version.toNat
  | .exception report => variant 1 ++ option envelope report
  | .coverage s => variant 2 ++ snapshot s
  | .finished => variant 3

/-- What the orchestrator sends. -/
def encodeCommand : Command → List UInt8
  | .decision attach => variant 0 ++ [if attach then 1 else 0]
  | .shutdown => variant 1

/-! ## Decoding -/

/-- From bytes to a value and the rest of the bytes. -/
abbrev Decoder (α : Type) : Type := List UInt8 → Except DecodeError (α × List UInt8)

/-- A number of `width` bytes. -/
def decodeNumber : Nat → Decoder Nat
  | 0, bs => .ok (0, bs)
  | _ + 1, [] => .error .shortNumber
  | width + 1, b :: bs => (decodeNumber width bs).map fun p => (b.toNat + 256 * p.1, p.2)

/-- The number of an alternative out of `count`. -/
def decodeVariant (count : Nat) : Decoder Nat := fun bs => do
  let (n, bs) ← decodeNumber 4 bs
  if n < count then return (n, bs) else throw (.unknownVariant n count)

/-- A text after its length. -/
def decodeText : Decoder String := fun bs => do
  let (n, bs) ← decodeNumber 8 bs
  if bs.length < n then throw .shortText
  else
    match Utf8.decode (bs.take n) with
    | .ok cs => return (String.ofList cs, bs.drop n)
    | .error e => throw (.notText e)

/-- So many items. The fuel is the number of bytes, of which every item takes some. -/
def decodeItems {α : Type} (item : Decoder α) : Nat → Nat → Decoder (List α)
  | _, 0, bs => .ok ([], bs)
  | 0, _ + 1, _ => .error .shortNumber
  | fuel + 1, n + 1, bs => do
    let (a, bs) ← item bs
    let (as, bs) ← decodeItems item fuel n bs
    return (a :: as, bs)

/-- A list after its length. -/
def decodeList {α : Type} (item : Decoder α) : Decoder (List α) := fun bs => do
  let (n, bs) ← decodeNumber 8 bs
  decodeItems item (bs.length + 1) n bs

/-- An optional value. -/
def decodeOption {α : Type} (value : Decoder α) : Decoder (Option α) := fun bs => do
  let (tag, bs) ← decodeNumber 1 bs
  match tag with
  | 0 => return (none, bs)
  | 1 =>
    let (a, bs) ← value bs
    return (some a, bs)
  | n => throw (.invalidOption n)

/-- A truth value. -/
def decodeBool : Decoder Bool := fun bs => do
  let (n, bs) ← decodeNumber 1 bs
  match n with
  | 0 => return (false, bs)
  | 1 => return (true, bs)
  | n => throw (.invalidBool n)

/-- Two values, one after the other. -/
def decodePair {α β : Type} (first : Decoder α) (second : Decoder β) : Decoder (α × β) :=
  fun bs => do
    let (a, bs) ← first bs
    let (b, bs) ← second bs
    return ((a, b), bs)

/-- A position, which travels as a text. -/
def decodePosition : Decoder Position := fun bs => do
  let (s, bs) ← decodeText bs
  match Position.parse s with
  | .ok p => return (p, bs)
  | .error e => throw (.invalidValue e.message)

/-- A function and its hits. -/
def decodeHits : Decoder FunctionHits := fun bs => do
  let (name, bs) ← decodeText bs
  let (n, bs) ← decodeNumber 8 bs
  return (⟨name, UInt64.ofNat n⟩, bs)

/-- A map; a later entry replaces an earlier one of the same key. -/
def decodeMap {κ α : Type} [Ord κ] [Std.TransOrd κ] [Std.LawfulEqOrd κ] (key : Decoder κ)
    (value : Decoder α) : Decoder (SortedMap κ α) := fun bs =>
  (decodeList (decodePair key value) bs).map fun p => (.ofList p.1, p.2)

/-- Coverage. -/
def decodeCoverage : Decoder Coverage :=
  decodeMap decodeText (decodeMap decodePosition decodeHits)

/-- A snapshot. -/
def decodeSnapshot : Decoder Snapshot := fun bs => do
  let (full, bs) ← decodeCoverage bs
  let (perTransaction, bs) ← decodeCoverage bs
  return (⟨full, perTransaction⟩, bs)

/-- A frame of a call stack. -/
def decodeStackFrame : Decoder StackFrame := fun bs => do
  let (file, bs) ← decodeText bs
  let (line, bs) ← decodeNumber 4 bs
  let (function, bs) ← decodeText bs
  let (locals, bs) ← decodeList (decodePair decodeText decodeText) bs
  return (⟨file, UInt32.ofNat line, function, locals⟩, bs)

/-- An origin. -/
def decodeOrigin : Decoder Origin := fun bs => do
  let (n, bs) ← decodeVariant 2 bs
  return (if n = 0 then .testBody else .harness, bs)

/-- An envelope. -/
def decodeEnvelope : Decoder Envelope := fun bs => do
  let (version, bs) ← decodeNumber 2 bs
  let (kind, bs) ← decodeText bs
  let (message, bs) ← decodeText bs
  let (origin, bs) ← decodeOrigin bs
  let (frames, bs) ← decodeList decodeStackFrame bs
  return (⟨UInt16.ofNat version, kind, message, origin, frames⟩, bs)

/-- What a worker sends; bytes behind it are ignored. -/
def decodeWorker : Decoder Dispatch := fun bs => do
  let (n, bs) ← decodeVariant 4 bs
  match n with
  | 0 =>
    let (index, bs) ← decodeNumber 8 bs
    let (version, bs) ← decodeNumber 2 bs
    return (.hello (UInt64.ofNat index) (UInt16.ofNat version), bs)
  | 1 =>
    let (report, bs) ← decodeOption decodeEnvelope bs
    return (.exception report, bs)
  | 2 =>
    let (s, bs) ← decodeSnapshot bs
    return (.coverage s, bs)
  | _ => return (.finished, bs)

/-- What the orchestrator sends. -/
def decodeCommand : Decoder Command := fun bs => do
  let (n, bs) ← decodeVariant 2 bs
  match n with
  | 0 =>
    let (attach, bs) ← decodeBool bs
    return (.decision attach, bs)
  | _ => return (.shutdown, bs)

end Binary

end FuzzCampaign
