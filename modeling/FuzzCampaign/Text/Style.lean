/-!
# Styled text

Text for a terminal: a colour, then attributes, then the text and a reset; or the bare text where
styles are off.

* `Style`, `Style.paint`.
-/

namespace FuzzCampaign

/-- The colours in use. -/
inductive Colour
  | red
  | green
  | yellow
  | blue
  | cyan
  deriving DecidableEq, Repr

/-- The number of a colour in a terminal's control sequence. -/
def Colour.code : Colour → Nat
  | .red => 31
  | .green => 32
  | .yellow => 33
  | .blue => 34
  | .cyan => 36

/-- A colour and attributes. -/
structure Style where
  colour? : Option Colour
  bold : Bool
  dim : Bool
  deriving DecidableEq, Repr

namespace Style

/-- Bold text. -/
def strong : Style := ⟨none, true, false⟩

/-- Dim text. -/
def faint : Style := ⟨none, false, true⟩

/-- Text in a colour. -/
def of (c : Colour) : Style := ⟨some c, false, false⟩

/-- Bold text in a colour. -/
def strongOf (c : Colour) : Style := ⟨some c, true, false⟩

/-- A terminal's control sequence. -/
def control (n : Nat) : String := s!"\x1b[{n}m"

/-- The control sequences of a style. -/
def controls (s : Style) : String :=
  (s.colour?.elim "" fun c => control c.code) ++ (if s.bold then control 1 else "") ++
    (if s.dim then control 2 else "")

/-- A text in a style, if styles are on. -/
def paint (on : Bool) (s : Style) (text : String) : String :=
  if on then s.controls ++ text ++ control 0 else text

end Style

end FuzzCampaign
