import FuzzCampaign.Json.Value

/-!
# Parts of values

The parts of a value that was written by hand, where what is usual may be left out. A part that is
missing, null or of another kind reads as the empty text, zero, false or the empty list.

* `Value.given?`, `Value.part`: a field;
* `Value.toText`, `toWord`, `toNat`, `toInt`, `toFlag`, `toItems`, `toFields`: a value of a kind;
* `Value.textOf`, `wordOf`, `natOf`, `flagOf`, `itemsOf`, `textsOf`: a field of a kind.
-/

namespace FuzzCampaign

namespace Json

namespace Value

/-- A field that is not null. -/
def given? (v : Value) (key : String) : Option Value :=
  match v.field? key with
  | some .null => none
  | found => found

/-- A field, or null. -/
def part (v : Value) (key : String) : Value := (v.given? key).getD .null

/-- A text. -/
def toText : Value → String
  | .text s => s
  | _ => ""

/-- An unsigned integer. -/
def toWord : Value → UInt64
  | .number (.unsigned n) => n
  | _ => 0

/-- An unsigned integer. -/
def toNat (v : Value) : Nat := v.toWord.toNat

/-- An integer. -/
def toInt : Value → Int
  | .number (.negative n) => -(n.toNat : Int)
  | v => v.toNat

/-- A number. -/
def toFloat : Value → Float
  | .number (.floating bits) => Float.ofBits bits
  | .number (.unsigned n) => Float.ofNat n.toNat
  | .number (.negative n) => -(Float.ofNat n.toNat)
  | _ => 0

/-- A truth value. -/
def toFlag : Value → Bool
  | .bool b => b
  | _ => false

/-- The items of a list. -/
def toItems : Value → List Value
  | .list items => items
  | _ => []

/-- The fields of an object. -/
def toFields : Value → List (String × Value)
  | .object fields => fields
  | _ => []

/-- A field that is a text. -/
def textOf (v : Value) (key : String) : String := (v.part key).toText

/-- A field that is an unsigned integer. -/
def wordOf (v : Value) (key : String) : UInt64 := (v.part key).toWord

/-- A field that is an unsigned integer. -/
def natOf (v : Value) (key : String) : Nat := (v.part key).toNat

/-- A field that is a truth value. -/
def flagOf (v : Value) (key : String) : Bool := (v.part key).toFlag

/-- A field that is a list. -/
def itemsOf (v : Value) (key : String) : List Value := (v.part key).toItems

/-- A field that is a list of texts. -/
def textsOf (v : Value) (key : String) : List String := (v.itemsOf key).map toText

end Value

end Json

end FuzzCampaign
