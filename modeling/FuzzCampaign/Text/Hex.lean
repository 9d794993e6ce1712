import FuzzCampaign.Text.Numeral

/-!
# Hexadecimal text

Bytes as pairs of hexadecimal digits.

* `Hex.encode`: lower case, the high half first;
* `Hex.decode?`: either case; refuses an odd number of digits and anything else.
-/

namespace FuzzCampaign

namespace Hex

/-- The digit of a value below sixteen, in lower case. -/
def digit (n : Nat) : Char :=
  if n < 10 then Char.ofNat ('0'.toNat + n) else Char.ofNat ('a'.toNat + (n - 10))

/-- The two digits of every byte. -/
def encode : List UInt8 → List Char
  | [] => []
  | b :: r => digit (b.toNat / 16) :: digit (b.toNat % 16) :: encode r

/-- The bytes of pairs of digits. -/
def decode? : List Char → Option (List UInt8)
  | [] => some []
  | [_] => none
  | h :: l :: r =>
    match Numeral.digitValue? h, Numeral.digitValue? l with
    | some h, some l => (decode? r).map (UInt8.ofNat (16 * h + l) :: ·)
    | _, _ => none

end Hex

end FuzzCampaign
