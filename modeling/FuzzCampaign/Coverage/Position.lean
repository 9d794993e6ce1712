import FuzzCampaign.Error
import FuzzCampaign.Text.Numeral
import FuzzCampaign.Text.Split

/-!
# Source positions

A range of source text, from one line and column to another. Its text form is the key under which
coverage is stored.

* `Position`, ordered by its four numbers;
* `Position.text`: `12:4-14:5`;
* `Position.parse`: reads the text form; blanks around the numbers and a plus sign are allowed.
-/

namespace FuzzCampaign

/-- A range of source text. -/
structure Position where
  startLine : UInt32
  startColumn : UInt32
  endLine : UInt32
  endColumn : UInt32
  deriving DecidableEq, Repr, Inhabited

namespace Position

/-- The order by the four numbers, the first that differs deciding. -/
instance : Ord Position where
  compare := compareLex (compareOn startLine) (compareLex (compareOn startColumn)
    (compareLex (compareOn endLine) (compareOn endColumn)))

instance : Std.TransOrd Position :=
  inferInstanceAs (Std.TransCmp (compareLex (compareOn startLine)
    (compareLex (compareOn startColumn) (compareLex (compareOn endLine) (compareOn endColumn)))))

theorem compare_eq_then (p q : Position) :
    compare p q = (compare p.startLine q.startLine).then ((compare p.startColumn q.startColumn).then
      ((compare p.endLine q.endLine).then (compare p.endColumn q.endColumn))) := rfl

instance : Std.LawfulEqOrd Position where
  eq_of_compare {p q} h := by
    rw [compare_eq_then] at h
    simp only [Ordering.then_eq_eq] at h
    obtain ⟨h₁, h₂, h₃, h₄⟩ := h
    cases p; cases q
    simp only [mk.injEq]
    exact ⟨Std.LawfulEqCmp.eq_of_compare h₁, Std.LawfulEqCmp.eq_of_compare h₂,
      Std.LawfulEqCmp.eq_of_compare h₃, Std.LawfulEqCmp.eq_of_compare h₄⟩

/-- The text form of a position. -/
def chars (p : Position) : List Char :=
  Numeral.decimal p.startLine.toNat ++ ':' :: Numeral.decimal p.startColumn.toNat ++
    '-' :: Numeral.decimal p.endLine.toNat ++ ':' :: Numeral.decimal p.endColumn.toNat

/-- The text form of a position. -/
def text (p : Position) : String := String.ofList p.chars

/-- One number of a position. -/
def readNumber? (cs : List Char) : Option UInt32 :=
  (Numeral.readDecimal? word32 (Text.trim cs)).map UInt32.ofNat

/-- A line and a column, apart at the first colon. -/
def readPoint? (cs : List Char) : Option (UInt32 × UInt32) := do
  let (line, column) ← Text.splitOnce ':' cs
  return (← readNumber? line, ← readNumber? column)

/-- Two points, apart at the first hyphen. -/
def read? (cs : List Char) : Option Position := do
  let (first, last) ← Text.splitOnce '-' cs
  let (startLine, startColumn) ← readPoint? first
  let (endLine, endColumn) ← readPoint? last
  return ⟨startLine, startColumn, endLine, endColumn⟩

/-- The error of a text that is no position. -/
def invalid (s : String) : CampaignError := .configuration s!"Invalid coverage position '{s}'"

/-- The position of a text. -/
def parse (s : String) : Except CampaignError Position :=
  match read? s.toList with
  | some p => .ok p
  | none => .error (invalid s)

end Position

end FuzzCampaign
