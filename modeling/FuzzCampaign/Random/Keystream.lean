/-!
# ChaCha key stream

The stream of 32-bit words of the ChaCha cipher with twelve rounds, a block counter of 64 bits and
stream number zero.

* `Keystream.block`: the sixteen words of a block;
* `Keystream.buffer`: the words of four blocks in a row.
-/

namespace FuzzCampaign

namespace Keystream

/-- The bits of a word turned to the left. -/
def rotateLeft (x n : UInt32) : UInt32 := (x <<< n) ||| (x >>> (32 - n))

/-- Four words mixed with each other. -/
def quarter (a b c d : UInt32) : UInt32 × UInt32 × UInt32 × UInt32 :=
  let a := a + b
  let d := rotateLeft (d ^^^ a) 16
  let c := c + d
  let b := rotateLeft (b ^^^ c) 12
  let a := a + b
  let d := rotateLeft (d ^^^ a) 8
  let c := c + d
  let b := rotateLeft (b ^^^ c) 7
  (a, b, c, d)

/-- Mix the words at four places. -/
def mixAt (s : Vector UInt32 16) (i j k l : Fin 16) : Vector UInt32 16 :=
  let (a, b, c, d) := quarter s[i] s[j] s[k] s[l]
  (((s.set i a).set j b).set k c).set l d

/-- A round on the columns and one on the diagonals. -/
def doubleRound (s : Vector UInt32 16) : Vector UInt32 16 :=
  let s := mixAt (mixAt (mixAt (mixAt s 0 4 8 12) 1 5 9 13) 2 6 10 14) 3 7 11 15
  mixAt (mixAt (mixAt (mixAt s 0 5 10 15) 1 6 11 12) 2 7 8 13) 3 4 9 14

/-- So many double rounds. -/
def doubleRounds : Nat → Vector UInt32 16 → Vector UInt32 16
  | 0, s => s
  | n + 1, s => doubleRounds n (doubleRound s)

/-- A word of a list, or zero. -/
def word (key : List UInt32) (i : Nat) : UInt32 := key.getD i 0

/-- The state of a block before its rounds: four constants, the key, the counter, the stream. -/
def blockStart (key : List UInt32) (counter : Nat) : Vector UInt32 16 :=
  #v[0x61707865, 0x3320646e, 0x79622d32, 0x6b206574,
    word key 0, word key 1, word key 2, word key 3, word key 4, word key 5, word key 6, word key 7,
    UInt32.ofNat counter, UInt32.ofNat (counter / Nat.pow 2 32), 0, 0]

/-- The words of a block. -/
def block (key : List UInt32) (counter : Nat) : List UInt32 :=
  let s := blockStart key counter
  (Vector.zipWith (· + ·) (doubleRounds 6 s) s).toList

/-- The number of blocks that are made at once. -/
def bufferBlocks : Nat := 4

/-- The words of the `n`-th buffer. -/
def buffer (key : List UInt32) (n : Nat) : List UInt32 :=
  (List.range bufferBlocks).flatMap fun i => block key (bufferBlocks * n + i)

/-- Bytes as words, the low byte first. -/
def toWords : List UInt8 → List UInt32
  | a :: b :: c :: d :: r =>
    (a.toUInt32 ||| b.toUInt32 <<< 8 ||| c.toUInt32 <<< 16 ||| d.toUInt32 <<< 24) :: toWords r
  | _ => []

/-- The bytes of a word, the low byte first. -/
def littleEndian (x : UInt32) : List UInt8 :=
  [x.toUInt8, (x >>> 8).toUInt8, (x >>> 16).toUInt8, (x >>> 24).toUInt8]

end Keystream

end FuzzCampaign
