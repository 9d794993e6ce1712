import FuzzCampaign.Link.Binary

/-!
# Frames

On a stream of bytes every message is a frame: its length in four bytes, the high byte first, and
its binary form. A stream that ends before a length is complete has ended cleanly.

* `Frame.write`: the bytes of a frame, if it is not too long;
* `Frame.read`: the first frame of a stream and the rest of the stream;
* `Frame.readAll`: every frame up to the end or the first error.
-/

namespace FuzzCampaign

namespace Frame

/-- The largest number of bytes of a message in a frame. -/
def maxLength : Nat := 67108864

/-- A length in four bytes, the high byte first. -/
def lengthBytes (n : Nat) : List UInt8 :=
  [UInt8.ofNat (n / 16777216 % 256), UInt8.ofNat (n / 65536 % 256), UInt8.ofNat (n / 256 % 256),
    UInt8.ofNat (n % 256)]

/-- The error of a message that is too long. -/
def tooLarge (n : Nat) : CampaignError := .protocol s!"frame of {n} bytes too large"

/-- The frame of a message in binary form. -/
def write (payload : List UInt8) : Except CampaignError (List UInt8) :=
  if payload.length ≤ maxLength then .ok (lengthBytes payload.length ++ payload)
  else .error (tooLarge payload.length)

/-- The error of a stream that ends inside a message. -/
def cut : CampaignError := .io "failed to fill whole buffer"

/-- What reading a frame comes to: a message, the end of the stream or an error, and in each case
the rest of the stream. -/
inductive Reading (α : Type)
  | message (a : α) (rest : List UInt8)
  | ended
  | failed (e : CampaignError) (rest : List UInt8)

/-- The rest of the stream behind a frame. -/
def Reading.rest {α : Type} : Reading α → List UInt8
  | .message _ rest => rest
  | .ended => []
  | .failed _ rest => rest

/-- Read the first frame of a stream. -/
def read {α : Type} (decode : Binary.Decoder α) : List UInt8 → Reading α
  | a :: b :: c :: d :: rest =>
    let n := a.toNat * 16777216 + b.toNat * 65536 + c.toNat * 256 + d.toNat
    if maxLength < n then .failed (tooLarge n) rest
    else if rest.length < n then .failed cut []
    else
      match decode (rest.take n) with
      | .ok (a, _) => .message a (rest.drop n)
      | .error e => .failed (.codec e.message) (rest.drop n)
  | _ => .ended

/-- The messages of a stream up to its end or the first error, that error, and the bytes that were
not read. The fuel is the number of bytes. -/
def readAllFrom {α : Type} (decode : Binary.Decoder α) :
    Nat → List UInt8 → List α × Option CampaignError × List UInt8
  | 0, bs => ([], none, bs)
  | fuel + 1, bs =>
    match read decode bs with
    | .message a rest =>
      let (as, e, rest) := readAllFrom decode fuel rest
      (a :: as, e, rest)
    | .ended => ([], none, [])
    | .failed e rest => ([], some e, rest)

/-- The messages of a stream up to its end or the first error, that error, and the bytes that were
not read. -/
def readAll {α : Type} (decode : Binary.Decoder α) (bs : List UInt8) :
    List α × Option CampaignError × List UInt8 :=
  readAllFrom decode (bs.length + 1) bs

end Frame

end FuzzCampaign
