import FuzzCampaign.SortedMap
import FuzzCampaign.Text.Shortest

/-!
# JSON values and their text

A number keeps the form in which it was written: an unsigned or a negative integer of 64 bits, or
the bits of a double-precision number.

* `Json.Number`, `Json.Value`;
* `Value.compact`: the text without white space;
* `Value.pretty`: one entry a line, four spaces a level.
-/

namespace FuzzCampaign

namespace Json

/-- A number. -/
inductive Number
  | unsigned (n : UInt64)
  /-- The negative number `-n`. -/
  | negative (n : UInt64)
  | floating (bits : UInt64)
  deriving DecidableEq, Repr

/-- The text of a number. -/
def Number.text : Number → List Char
  | .unsigned n => Numeral.decimal n.toNat
  | .negative n => '-' :: Numeral.decimal n.toNat
  | .floating bits => floatText bits

/-- A JSON value; the fields of an object stand in the order in which they are written. -/
inductive Value
  | null
  | bool (b : Bool)
  | number (n : Number)
  | text (s : String)
  | list (items : List Value)
  | object (fields : List (String × Value))
  deriving Repr

instance : Inhabited Value := ⟨.null⟩

/-- The value of an unsigned integer. -/
def Value.ofNat (n : Nat) : Value := .number (.unsigned (UInt64.ofNat n))

/-! ## Text -/

/-- The four hexadecimal digits of a control character. -/
def controlDigits (n : Nat) : List Char :=
  let digits := Nat.toDigits 16 n
  List.replicate (4 - digits.length) '0' ++ digits

/-- A character inside quotes: the quote, the backslash and the controls are escaped. -/
def escape (c : Char) : List Char :=
  match c with
  | '"' => ['\\', '"']
  | '\\' => ['\\', '\\']
  | '\x08' => ['\\', 'b']
  | '\t' => ['\\', 't']
  | '\n' => ['\\', 'n']
  | '\x0c' => ['\\', 'f']
  | '\r' => ['\\', 'r']
  | c => if c.toNat < 0x20 then '\\' :: 'u' :: controlDigits c.toNat else [c]

/-- A text in quotes. -/
def quote (s : String) : List Char := '"' :: s.toList.flatMap escape ++ ['"']

mutual

/-- The text of a value without white space. -/
def Value.compactChars : Value → List Char
  | .null => ['n', 'u', 'l', 'l']
  | .bool true => ['t', 'r', 'u', 'e']
  | .bool false => ['f', 'a', 'l', 's', 'e']
  | .number n => n.text
  | .text s => quote s
  | .list [] => ['[', ']']
  | .list (v :: vs) => '[' :: v.compactChars ++ compactItems vs
  | .object [] => ['\x7b', '\x7d']
  | .object (f :: fs) => '\x7b' :: compactField f ++ compactFields fs

/-- The items after the first, and the end of the list. -/
def compactItems : List Value → List Char
  | [] => [']']
  | v :: vs => ',' :: v.compactChars ++ compactItems vs

/-- A key and its value. -/
def compactField : String × Value → List Char
  | (k, v) => quote k ++ ':' :: v.compactChars

/-- The fields after the first, and the end of the object. -/
def compactFields : List (String × Value) → List Char
  | [] => ['\x7d']
  | f :: fs => ',' :: compactField f ++ compactFields fs

end

/-- A new line at a level of nesting. -/
def newline (level : Nat) : List Char := '\n' :: List.replicate (4 * level) ' '

mutual

/-- The text of a value with one entry a line, at a level of nesting. -/
def Value.prettyChars (level : Nat) : Value → List Char
  | .null => ['n', 'u', 'l', 'l']
  | .bool true => ['t', 'r', 'u', 'e']
  | .bool false => ['f', 'a', 'l', 's', 'e']
  | .number n => n.text
  | .text s => quote s
  | .list [] => ['[', ']']
  | .list (v :: vs) =>
    '[' :: newline (level + 1) ++ v.prettyChars (level + 1) ++ prettyItems level vs
  | .object [] => ['\x7b', '\x7d']
  | .object (f :: fs) =>
    '\x7b' :: newline (level + 1) ++ prettyField (level + 1) f ++ prettyFields level fs

/-- The items after the first, and the end of the list. -/
def prettyItems (level : Nat) : List Value → List Char
  | [] => newline level ++ [']']
  | v :: vs => ',' :: newline (level + 1) ++ v.prettyChars (level + 1) ++ prettyItems level vs

/-- A key and its value. -/
def prettyField (level : Nat) : String × Value → List Char
  | (k, v) => quote k ++ ':' :: ' ' :: v.prettyChars level

/-- The fields after the first, and the end of the object. -/
def prettyFields (level : Nat) : List (String × Value) → List Char
  | [] => newline level ++ ['\x7d']
  | f :: fs => ',' :: newline (level + 1) ++ prettyField (level + 1) f ++ prettyFields level fs

end

/-- The text of a value without white space. -/
def Value.compact (v : Value) : String := String.ofList v.compactChars

/-- The text of a value with one entry a line and four spaces a level. -/
def Value.pretty (v : Value) : String := String.ofList (v.prettyChars 0)

/-- The value of a field of an object. -/
def Value.field? (name : String) : Value → Option Value
  | .object fields => (fields.find? fun f => f.1 = name).map (·.2)
  | _ => none

mutual

/-- The value with the keys of every object in increasing order. -/
def Value.sorted : Value → Value
  | .list items => .list (sortedItems items)
  | .object fields => .object (SortedMap.ofList (sortedFields fields)).toList
  | v => v

/-- Every item with its keys in order. -/
def sortedItems : List Value → List Value
  | [] => []
  | v :: vs => v.sorted :: sortedItems vs

/-- Every field with the keys of its value in order. -/
def sortedFields : List (String × Value) → List (String × Value)
  | [] => []
  | (k, v) :: fs => (k, v.sorted) :: sortedFields fs

end

end Json

end FuzzCampaign
