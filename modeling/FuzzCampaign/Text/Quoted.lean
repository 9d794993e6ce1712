import FuzzCampaign.Text.Visible

/-!
# Quoted text

The form in which watched values and unexpected JSON strings are shown: in double quotes, with
escapes for the quote, the backslash and everything that is not visible.

* `Quoted.character`, `Quoted.quote`;
* `Shown.list`, `Shown.option`: lists and optional values in the same form.
-/

namespace FuzzCampaign

namespace Quoted

/-- A character inside quotes. -/
def character (c : Char) : List Char :=
  match c with
  | '"' => ['\\', '"']
  | '\\' => ['\\', '\\']
  | '\n' => ['\\', 'n']
  | '\r' => ['\\', 'r']
  | '\t' => ['\\', 't']
  | '\x00' => ['\\', '0']
  | c =>
    if Text.isVisible c then [c]
    else ['\\', 'u', '\x7b'] ++ Nat.toDigits 16 c.toNat ++ ['\x7d']

/-- A text in double quotes. -/
def quote (s : String) : String :=
  String.ofList ('"' :: s.toList.flatMap character ++ ['"'])

end Quoted

namespace Shown

/-- A list in brackets, separated by commas. -/
def list (items : List String) : String := "[" ++ ", ".intercalate items ++ "]"

/-- An optional value. -/
def option : Option String → String
  | none => "None"
  | some s => "Some(" ++ s ++ ")"

end Shown

end FuzzCampaign
