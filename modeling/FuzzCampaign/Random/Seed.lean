import FuzzCampaign.Error
import FuzzCampaign.Json.Record
import FuzzCampaign.Text.Hex

/-!
# Seeds

Every worker has a seed of eight bytes, which is written in hexadecimal.

* `Seed`, `Seed.bytes`, `Seed.ofBytes`;
* `Seed.hex`, `Seed.ofHex`: the text form, read with or without `0x` before it;
* `Seed.pad`: one seed for each of so many workers.
-/

namespace FuzzCampaign

/-- The start of a worker's random numbers: eight bytes. -/
structure Seed where
  toVector : Vector UInt8 8
  deriving DecidableEq, Inhabited

namespace Seed

/-- The number of bytes of a seed. -/
def length : Nat := 8

/-- The bytes of a seed. -/
def bytes (s : Seed) : List UInt8 := s.toVector.toList

/-- The seed of eight bytes. -/
def ofBytes (bytes : List UInt8) : Except CampaignError Seed :=
  if h : bytes.toArray.size = 8 then .ok ⟨⟨bytes.toArray, h⟩⟩
  else .error (.configuration s!"Seed must be {length} bytes long, got {bytes.length}")

/-- The text form of a seed: sixteen digits in lower case. -/
def hex (s : Seed) : String := String.ofList (Hex.encode s.bytes)

/-- The seed of a text form, with or without `0x` before it. -/
def ofHex (text : String) : Except CampaignError Seed :=
  let digits := match text.toList with
    | '0' :: 'x' :: r => r
    | cs => cs
  match Hex.decode? digits with
  | some bytes => ofBytes bytes
  | none => .error (.configuration s!"Invalid seed '{text}'")

/-- The form in which a seed is shown among other values. -/
def shown (s : Seed) : String := s!"Seed({s.hex})"

/-- The JSON of a seed. -/
def json (s : Seed) : Json.Value := .text s.hex

/-- The reader of a seed. -/
def reader : Json.Reader Seed := Json.Reader.parsed fun s => (ofHex s).mapError (·.message)

/-- Seeds for `count` workers: those supplied in order, and `fresh` ones for the rest. -/
def pad (supplied : List Seed) (count : Nat) (fresh : List Seed) : List Seed :=
  supplied.take count ++ fresh.take (count - supplied.length)

end Seed

end FuzzCampaign
