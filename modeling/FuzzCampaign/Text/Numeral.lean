/-!
# Numerals

Numbers are written with the fewest digits and read back with a bound on their value.

* `Numeral.decimal`: the decimal text of a number;
* `Numeral.read`: reads an unsigned numeral of a base below a bound, with the cause of a refusal;
* `Numeral.NumeralError.message`: the wording of the causes.
-/

namespace FuzzCampaign

namespace Numeral

/-- The decimal digits of a number, without leading zeros. -/
def decimal (n : Nat) : List Char := Nat.toDigits 10 n

/-- Why a text is no numeral. -/
inductive NumeralError
  | empty
  | invalidDigit
  | tooLarge
  deriving DecidableEq, Repr

/-- The wording of a refusal. -/
def NumeralError.message : NumeralError → String
  | .empty => "cannot parse integer from empty string"
  | .invalidDigit => "invalid digit found in string"
  | .tooLarge => "number too large to fit in target type"

/-- The value of a digit of base ten or sixteen, in either case. -/
def digitValue? (c : Char) : Option Nat :=
  if '0' ≤ c ∧ c ≤ '9' then some (c.toNat - '0'.toNat)
  else if 'a' ≤ c ∧ c ≤ 'f' then some (c.toNat - 'a'.toNat + 10)
  else if 'A' ≤ c ∧ c ≤ 'F' then some (c.toNat - 'A'.toNat + 10)
  else none

/-- The value of a character as a digit of `base`. -/
def digit? (base : Nat) (c : Char) : Option Nat := (digitValue? c).filter (· < base)

/-- Read digits from the left after the value `acc`; the first fault in text order decides. -/
def readDigits (base bound : Nat) (acc : Nat) : List Char → Except NumeralError Nat
  | [] => .ok acc
  | c :: r =>
    match digit? base c with
    | none => .error .invalidDigit
    | some d =>
      if acc * base + d < bound then readDigits base bound (acc * base + d) r
      else .error .tooLarge

/-- Read one optional plus sign and at least one digit of `base`, with a value below `bound`. -/
def read (base bound : Nat) : List Char → Except NumeralError Nat
  | [] => .error .empty
  | ['+'] => .error .invalidDigit
  | '+' :: r => readDigits base bound 0 r
  | cs => readDigits base bound 0 cs

/-- Read a decimal numeral with a value below `bound`. -/
def readDecimal? (bound : Nat) (cs : List Char) : Option Nat := (read 10 bound cs).toOption

end Numeral

/-- The number of values of a 16-bit word. -/
abbrev word16 : Nat := 65536

/-- The number of values of a 32-bit word. -/
abbrev word32 : Nat := 4294967296

/-- The number of values of a 64-bit word. -/
abbrev word64 : Nat := 18446744073709551616

end FuzzCampaign
