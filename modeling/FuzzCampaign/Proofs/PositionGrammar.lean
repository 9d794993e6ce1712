import FuzzCampaign.Proofs.BacktraceText
import FuzzCampaign.Proofs.NumeralText
import Mathlib.Data.List.TakeWhile

/-!
# Which texts are positions

The texts that are read as positions are described without the reader: where they are cut, what may
stand around their numbers, and how the numbers are written.

* `Text.splitOnce_eq_some_iff`, `Text.exists_padded_trim`: the cut at the first separator, and the
  blanks at the ends;
* `Numeral.IsSpaced`, `Position.IsPoint`, `Position.IsText`: the texts of a number with blanks
  around it, of a point and of a position;
* `Position.readPoint?_eq_some_iff`, `Position.read?_eq_some_iff`: what is read;
* **`Position.parse_exact`**: all that the reader of positions does.
-/

namespace FuzzCampaign

/-! ## Cuts and blanks -/

namespace Text

theorem splitOnce_eq_some_iff {sep : Char} {cs before after : List Char} :
    splitOnce sep cs = some (before, after) ↔ cs = before ++ sep :: after ∧ sep ∉ before := by
  constructor
  · intro h
    induction cs generalizing before with
    | nil => simp [splitOnce] at h
    | cons c cs ih =>
      unfold splitOnce at h
      split_ifs at h with hc
      · obtain ⟨rfl, rfl⟩ := Prod.mk.inj (Option.some.inj h)
        simp [hc]
      · obtain ⟨⟨front, back⟩, hcut, heq⟩ := Option.map_eq_some_iff.1 h
        obtain ⟨rfl, rfl⟩ := Prod.mk.inj heq
        obtain ⟨rfl, hfront⟩ := ih hcut
        simp [hfront, Ne.symm hc]
  · rintro ⟨rfl, hbefore⟩
    exact splitOnce_append hbefore after

theorem exists_padded_trim (cs : List Char) : ∃ before after, cs = before ++ trim cs ++ after ∧
    (∀ c ∈ before, isBlank c = true) ∧ ∀ c ∈ after, isBlank c = true := by
  let rest := trimStart cs
  refine ⟨cs.takeWhile isBlank, (rest.reverse.takeWhile isBlank).reverse, ?_, ?_, ?_⟩
  · have hrest : trim cs ++ (rest.reverse.takeWhile isBlank).reverse = rest := by
      rw [trim, trimEnd, ← List.reverse_append, List.takeWhile_append_dropWhile,
        List.reverse_reverse]
    rw [List.append_assoc, hrest]
    exact List.takeWhile_append_dropWhile.symm
  · exact fun c hc => List.mem_takeWhile_imp hc
  · exact fun c hc => List.mem_takeWhile_imp (List.mem_reverse.1 hc)

end Text

/-! ## Numbers -/

namespace Numeral

/-- A text of the number `n` with blanks around it, or none. -/
def IsSpaced (cs : List Char) (n : Nat) : Prop :=
  ∃ before numeral after, cs = before ++ numeral ++ after ∧
    (∀ c ∈ before, Text.isBlank c = true) ∧ (∀ c ∈ after, Text.isBlank c = true) ∧
    IsNumeral numeral n

theorem isSpaced_iff_trim {cs : List Char} {n : Nat} :
    IsSpaced cs n ↔ IsNumeral (Text.trim cs) n := by
  constructor
  · rintro ⟨before, numeral, after, rfl, hbefore, hafter, hnumeral⟩
    have hbare : Text.Bare numeral :=
      ⟨fun c hc => hnumeral.isBlank (List.mem_of_mem_head? hc),
        fun c hc => hnumeral.isBlank (List.mem_of_mem_getLast? hc)⟩
    rwa [Text.trim_padded hbefore hafter hbare]
  · intro h
    obtain ⟨before, after, hcs, hbefore, hafter⟩ := Text.exists_padded_trim cs
    exact ⟨before, Text.trim cs, after, hcs, hbefore, hafter, h⟩

end Numeral

/-! ## Positions -/

namespace Position

open Numeral

/-- A text of a line and a column: two numbers, apart at the first colon. -/
def IsPoint (cs : List Char) (line column : UInt32) : Prop :=
  ∃ first second, cs = first ++ ':' :: second ∧ ':' ∉ first ∧
    IsSpaced first line.toNat ∧ IsSpaced second column.toNat

/-- A text of a position: two points, apart at the first hyphen. -/
def IsText (cs : List Char) (p : Position) : Prop :=
  ∃ first last, cs = first ++ '-' :: last ∧ '-' ∉ first ∧
    IsPoint first p.startLine p.startColumn ∧ IsPoint last p.endLine p.endColumn

theorem readNumber?_eq_some_iff {cs : List Char} {n : UInt32} :
    readNumber? cs = some n ↔ IsSpaced cs n.toNat := by
  unfold readNumber?
  rw [Option.map_eq_some_iff, isSpaced_iff_trim]
  constructor
  · rintro ⟨m, hm, rfl⟩
    obtain ⟨hnumeral, hlt⟩ := readDecimal?_eq_some_iff.1 hm
    rwa [UInt32.toNat_ofNat', Nat.mod_eq_of_lt hlt]
  · intro h
    exact ⟨n.toNat, readDecimal?_eq_some_iff.2 ⟨h, n.toNat_lt⟩, UInt32.ofNat_toNat⟩

theorem readPoint?_eq_some_iff {cs : List Char} {line column : UInt32} :
    readPoint? cs = some (line, column) ↔ IsPoint cs line column := by
  unfold readPoint?
  simp only [Option.bind_eq_bind, Option.bind_eq_some_iff, Option.pure_def, Option.some.injEq,
    Prod.mk.injEq, Prod.exists, Text.splitOnce_eq_some_iff, readNumber?_eq_some_iff, IsPoint]
  constructor
  · rintro ⟨first, second, ⟨hcs, hfirst⟩, _, hline, _, hcolumn, rfl, rfl⟩
    exact ⟨first, second, hcs, hfirst, hline, hcolumn⟩
  · rintro ⟨first, second, hcs, hfirst, hline, hcolumn⟩
    exact ⟨first, second, ⟨hcs, hfirst⟩, line, hline, column, hcolumn, rfl, rfl⟩

theorem read?_eq_some_iff {cs : List Char} {p : Position} : read? cs = some p ↔ IsText cs p := by
  unfold read?
  simp only [Option.bind_eq_bind, Option.bind_eq_some_iff, Option.pure_def, Option.some.injEq,
    Prod.exists, Text.splitOnce_eq_some_iff, readPoint?_eq_some_iff, IsText]
  constructor
  · rintro ⟨first, last, ⟨hcs, hfirst⟩, _, _, hstart, _, _, hend, rfl⟩
    exact ⟨first, last, hcs, hfirst, hstart, hend⟩
  · rintro ⟨first, last, hcs, hfirst, hstart, hend⟩
    exact ⟨first, last, ⟨hcs, hfirst⟩, _, _, hstart, _, _, hend, rfl⟩

theorem parse_eq_ok_iff {s : String} {p : Position} : parse s = .ok p ↔ IsText s.toList p := by
  rw [← read?_eq_some_iff, parse]
  cases read? s.toList <;> simp

theorem parse_eq_error_iff {s : String} {e : CampaignError} :
    parse s = .error e ↔ e = invalid s ∧ ∀ p, ¬ IsText s.toList p := by
  simp only [← read?_eq_some_iff, parse]
  cases read? s.toList with
  | none => simp [eq_comm]
  | some p => simp

/-- **The reader of positions is exact.** A position is read back from its text, so different
positions have different texts; a text is read as a position if and only if it is one of that
position's texts; and every other text gives the error that names it. -/
theorem parse_exact :
    (∀ p : Position, parse p.text = .ok p) ∧
    Function.Injective text ∧
    (∀ (s : String) (p : Position), parse s = .ok p ↔ IsText s.toList p) ∧
    ∀ (s : String) (e : CampaignError), parse s = .error e ↔
      e = .configuration ("Invalid coverage position '" ++ s ++ "'") ∧
        ∀ p, ¬ IsText s.toList p := by
  refine ⟨parse_text, text_injective, fun s p => parse_eq_ok_iff, fun s e => ?_⟩
  have hinvalid : invalid s = .configuration ("Invalid coverage position '" ++ s ++ "'") := rfl
  rw [parse_eq_error_iff, hinvalid]

/-- A blank may stand around a number and a plus sign before it, but a second colon is no part of
it. -/
example : parse " 12:+4 -007: 5\n" = .ok ⟨12, 4, 7, 5⟩ ∧
    parse "1:2:3-4:5" = .error (.configuration "Invalid coverage position '1:2:3-4:5'") := by
  decide +kernel

end Position

end FuzzCampaign
