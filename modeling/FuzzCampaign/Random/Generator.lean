import FuzzCampaign.Random.Digest
import FuzzCampaign.Random.Keystream
import FuzzCampaign.Random.Seed

/-!
# Random numbers of a worker

A worker draws its random numbers from the key stream of its seed, so that a run with the same seed
draws the same numbers.

* `Generator`, `Generator.ofSeed`;
* `Generator.word`, `Generator.doubleWord`, `Generator.bytes`;
* `Generator.below`, `Generator.between?`, `Generator.chance?`.
-/

namespace FuzzCampaign

/-- A key stream, the number of its next buffer, and the words left of the present one. -/
structure Generator where
  key : List UInt32
  next : Nat
  buffer : List UInt32
  deriving DecidableEq

namespace Generator

/-- What the seed bytes are preceded by in the message whose digest is the key. -/
def keyLabel : String := "CHAINFUZZ_WORKER_RNG"

/-- The generator of a seed. -/
def ofSeed (seed : Seed) : Generator :=
  let message := keyLabel.toList.map (fun c => UInt8.ofNat c.toNat) ++ seed.bytes
  ⟨Keystream.toWords (Digest.sha256 message), 0, []⟩

/-- The generator with a fresh buffer. -/
def refill (g : Generator) : Generator := ⟨g.key, g.next + 1, Keystream.buffer g.key g.next⟩

/-- The next word. -/
def word (g : Generator) : UInt32 × Generator :=
  match g.buffer with
  | w :: r => (w, { g with buffer := r })
  | [] =>
    let g := g.refill
    (g.buffer.headD 0, { g with buffer := g.buffer.tail })

/-- The next two words as one, the low half first. -/
def doubleWord (g : Generator) : UInt64 × Generator :=
  let (low, g) := g.word
  let (high, g) := g.word
  (low.toUInt64 ||| high.toUInt64 <<< 32, g)

/-- Bytes of so many words, one word after another. -/
def wordBytes : Nat → Generator → List UInt8 × Generator
  | 0, g => ([], g)
  | n + 1, g =>
    let (w, g) := g.word
    let (bs, g) := wordBytes n g
    (Keystream.littleEndian w ++ bs, g)

/-- The next `n` bytes; the rest of the last word is lost. -/
def bytes (g : Generator) (n : Nat) : List UInt8 × Generator :=
  let (bs, g) := wordBytes ((n + 3) / 4) g
  (bs.take n, g)

/-- How often a draw that would favour some results is drawn again. -/
def maxRedraws : Nat := 10000

/-- A number below `range`, which is not zero: the high half of the product with a draw, unless the
low half lies above the last whole multiple of the range. -/
def below (range : UInt64) : Nat → Generator → UInt64 × Generator
  | 0, g => (0, g)
  | fuel + 1, g =>
    let zeros := 63 - Nat.log2 range.toNat
    let zone := range.toNat * 2 ^ zeros - 1
    let (v, g) := g.doubleWord
    let product := v.toNat * range.toNat
    if product % word64 ≤ zone then (UInt64.ofNat (product / word64), g) else below range fuel g

/-- Why nothing can be drawn. -/
inductive DrawError
  | emptyRange
  | noProbability
  deriving DecidableEq, Repr

/-- The wording of a refused draw. -/
def DrawError.message : DrawError → String
  | .emptyRange => "cannot sample empty range"
  | .noProbability => "called `Result::unwrap()` on an `Err` value: InvalidProbability"

/-- A number from `low` to below `high`. -/
def between? (g : Generator) (low high : UInt64) : Except DrawError (UInt64 × Generator) :=
  if low < high then
    let (n, g) := below (high - low) maxRedraws g
    .ok (low + n, g)
  else .error .emptyRange

/-- True with probability `p`; a certain event draws nothing. -/
def chance? (g : Generator) (p : Float) : Except DrawError (Bool × Generator) :=
  if 0.0 ≤ p && p < 1.0 then
    let (v, g) := g.doubleWord
    .ok (decide (v < (p * 18446744073709551616.0).toUInt64), g)
  else if p == 1.0 then .ok (true, g)
  else .error .noProbability

end Generator

end FuzzCampaign
