/-!
# UTF-8

Text as bytes, and bytes as text. The reader names the first byte sequence that is no character and
how many of its bytes rule it out; bytes that end inside a character are told apart from bytes that
no continuation can mend.

* `Utf8.encode`, `Utf8.size`;
* `Utf8.head`: the first character of a byte sequence, or why there is none;
* `Utf8.decode`: all of it, or the first fault; `Utf8.decodeLossy`: with U+FFFD for each fault.
-/

namespace FuzzCampaign

namespace Utf8

/-- The bytes of a text. -/
def encode (cs : List Char) : List UInt8 := cs.flatMap String.utf8EncodeChar

/-- The number of bytes of a text. -/
def size (cs : List Char) : Nat := cs.foldl (fun n c => n + c.utf8Size) 0

/-- Where bytes stop being text: the number of bytes before the fault, and the length of the
sequence at fault, or none if the bytes end inside a character. -/
structure DecodeError where
  validUpTo : Nat
  length? : Option Nat
  deriving DecidableEq, Repr

/-- The wording of a fault. -/
def DecodeError.message (e : DecodeError) : String :=
  match e.length? with
  | some n => s!"invalid utf-8 sequence of {n} bytes from index {e.validUpTo}"
  | none => s!"incomplete utf-8 byte sequence from index {e.validUpTo}"

/-- What a byte sequence begins with: a character and its length, or a sequence that is none. -/
inductive Head
  | char (c : Char) (length : Nat)
  | invalid (length : Nat)
  | incomplete
  deriving DecidableEq, Repr

/-- Whether a byte continues a character. -/
def isContinuation (b : UInt8) : Bool := 0x80 ≤ b && b ≤ 0xBF

/-- Whether `b` may follow the first byte `a` of a character of three bytes. -/
def isSecondOfThree (a b : UInt8) : Bool :=
  if a = 0xE0 then 0xA0 ≤ b && b ≤ 0xBF
  else if a = 0xED then 0x80 ≤ b && b ≤ 0x9F
  else isContinuation b

/-- Whether `b` may follow the first byte `a` of a character of four bytes. -/
def isSecondOfFour (a b : UInt8) : Bool :=
  if a = 0xF0 then 0x90 ≤ b && b ≤ 0xBF
  else if a = 0xF4 then 0x80 ≤ b && b ≤ 0x8F
  else isContinuation b

/-- The six low bits of a continuation byte. -/
def lowBits (b : UInt8) : Nat := b.toNat % 64

/-- The first character of a byte sequence. -/
def head (a : UInt8) (rest : List UInt8) : Head :=
  if a < 0x80 then .char (Char.ofNat a.toNat) 1
  else if a < 0xC2 then .invalid 1
  else if a < 0xE0 then
    match rest with
    | [] => .incomplete
    | b :: _ =>
      if isContinuation b then .char (Char.ofNat (a.toNat % 32 * 64 + lowBits b)) 2 else .invalid 1
  else if a < 0xF0 then
    match rest with
    | [] => .incomplete
    | b :: rest =>
      if isSecondOfThree a b then
        match rest with
        | [] => .incomplete
        | c :: _ =>
          if isContinuation c then
            .char (Char.ofNat (a.toNat % 16 * 4096 + lowBits b * 64 + lowBits c)) 3
          else .invalid 2
      else .invalid 1
  else if a < 0xF5 then
    match rest with
    | [] => .incomplete
    | b :: rest =>
      if isSecondOfFour a b then
        match rest with
        | [] => .incomplete
        | c :: rest =>
          if isContinuation c then
            match rest with
            | [] => .incomplete
            | d :: _ =>
              if isContinuation d then
                .char (Char.ofNat
                  (a.toNat % 8 * 262144 + lowBits b * 4096 + lowBits c * 64 + lowBits d)) 4
              else .invalid 3
          else .invalid 2
      else .invalid 1
  else .invalid 1

/-- Read text from the byte at `offset`; `skip` counts bytes of a character already read. -/
def decodeFrom (offset : Nat) : Nat → List UInt8 → Except DecodeError (List Char)
  | _, [] => .ok []
  | skip + 1, _ :: r => decodeFrom (offset + 1) skip r
  | 0, b :: r =>
    match head b r with
    | .char c n => (decodeFrom (offset + 1) (n - 1) r).map (c :: ·)
    | .invalid n => .error ⟨offset, some n⟩
    | .incomplete => .error ⟨offset, none⟩

/-- The text of a byte sequence, or its first fault. -/
def decode (bs : List UInt8) : Except DecodeError (List Char) := decodeFrom 0 0 bs

/-- Read text with U+FFFD for every sequence that is no character. -/
def decodeLossyFrom : Nat → List UInt8 → List Char
  | _, [] => []
  | skip + 1, _ :: r => decodeLossyFrom skip r
  | 0, b :: r =>
    match head b r with
    | .char c n => c :: decodeLossyFrom (n - 1) r
    | .invalid n => '\uFFFD' :: decodeLossyFrom (n - 1) r
    | .incomplete => ['\uFFFD']

/-- The text of a byte sequence, with U+FFFD for every sequence that is no character. -/
def decodeLossy (bs : List UInt8) : List Char := decodeLossyFrom 0 bs

end Utf8

end FuzzCampaign
