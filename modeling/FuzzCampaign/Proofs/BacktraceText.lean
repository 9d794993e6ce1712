import FuzzCampaign.Failure.Backtrace
import FuzzCampaign.Proofs.PositionText
import Mathlib.Data.List.Forall2

/-!
# Backtraces are read back

The frames that a backtrace shows are read back from its text, whatever the functions and files are
called: each with its own place, without the hash at the end of its function, the outermost first.

* `Text.lines_unlines`, `Text.trim_indented`, `Text.rsplitOnce_append` and the like: lines, blanks
  and separators of texts that are put together;
* `Backtrace.Unhashed`, `Backtrace.unhashed_dropHash`: a function and its name without the hash;
* `Backtrace.IsHidden`, `Backtrace.isMachinery_iff`: the functions that are left out;
* `Backtrace.FrameText`, `Backtrace.rendered`: the text of a backtrace;
* **`Backtrace.parse_rendered`**: reading it back.
-/

namespace FuzzCampaign

namespace Text

/-! ## Lines -/

/-- Lines, each ended by a newline, except that the last one may be left unended. -/
def unlines (ended : Bool) : List (List Char) → List Char
  | [] => []
  | [l] => if ended then l ++ ['\n'] else l
  | l :: ls => l ++ '\n' :: unlines ended ls

theorem splitLines_ne_nil (cs : List Char) : splitLines cs ≠ [] := by
  fun_cases splitLines cs <;> simp_all

theorem splitLines_cons {c : Char} (h : c ≠ '\n') {cs l : List Char} {ls : List (List Char)}
    (hcs : splitLines cs = l :: ls) : splitLines (c :: cs) = (c :: l) :: ls := by
  rw [splitLines.eq_3 c cs h, hcs]

theorem splitLines_append {l : List Char} (h : '\n' ∉ l) (rest : List Char) :
    splitLines (l ++ '\n' :: rest) = l :: splitLines rest := by
  induction l with
  | nil => rfl
  | cons c l ih =>
    rw [List.mem_cons, not_or] at h
    exact splitLines_cons (Ne.symm h.1) (ih h.2)

theorem splitLines_of_not_mem {l : List Char} (h : '\n' ∉ l) : splitLines l = [l] := by
  induction l with
  | nil => rfl
  | cons c l ih =>
    rw [List.mem_cons, not_or] at h
    exact splitLines_cons (Ne.symm h.1) (ih h.2)

theorem lines_append {l : List Char} (h : '\n' ∉ l) (rest : List Char) :
    lines (l ++ '\n' :: rest) = dropReturn l :: lines rest := by
  obtain ⟨l', ls, hrest⟩ := List.exists_cons_of_ne_nil (splitLines_ne_nil rest)
  simp only [lines, splitLines_append h, hrest, List.getLast?_cons_cons, List.dropLast_cons_cons,
    List.map_cons]
  split <;> rfl

theorem lines_of_not_mem {l : List Char} (h : '\n' ∉ l) (hne : l ≠ []) : lines l = [l] := by
  obtain ⟨c, l, rfl⟩ := List.exists_cons_of_ne_nil hne
  rw [lines, splitLines_of_not_mem h]
  rfl

/-- **Lines are read back**, if none of them is empty or ends in a carriage return. -/
theorem lines_unlines {ls : List (List Char)} (h : ∀ l ∈ ls, '\n' ∉ l)
    (hne : ∀ l ∈ ls, l ≠ []) (hreturn : ∀ l ∈ ls, dropReturn l = l) (ended : Bool) :
    lines (unlines ended ls) = ls := by
  induction ls with
  | nil => rfl
  | cons l ls ih =>
    rw [List.forall_mem_cons] at h hne hreturn
    have hended (rest : List Char) : lines (l ++ '\n' :: rest) = l :: lines rest := by
      rw [lines_append h.1, hreturn.1]
    cases ls with
    | nil =>
      cases ended with
      | true => exact hended []
      | false => exact lines_of_not_mem h.1 hne.1
    | cons l' ls => exact (hended _).trans (congrArg _ (ih h.2 hne.2 hreturn.2))

/-! ## Blanks -/

/-- A text that neither begins nor ends with a blank. -/
structure Bare (cs : List Char) : Prop where
  head : ∀ c, cs.head? = some c → isBlank c = false
  last : ∀ c, cs.getLast? = some c → isBlank c = false

theorem dropWhile_isBlank {cs : List Char} (h : ∀ c, cs.head? = some c → isBlank c = false) :
    cs.dropWhile isBlank = cs := by
  cases cs with
  | nil => rfl
  | cons c cs => rw [List.dropWhile_cons_of_neg (by simp [h c rfl])]

theorem trim_padded {before cs after : List Char} (hbefore : ∀ c ∈ before, isBlank c = true)
    (hafter : ∀ c ∈ after, isBlank c = true) (hcs : Bare cs) :
    trim (before ++ cs ++ after) = cs := by
  have hend : trimEnd (cs ++ after) = cs := by
    rw [trimEnd, List.reverse_append,
      List.dropWhile_append_of_pos fun c hc => hafter c (List.mem_reverse.1 hc),
      dropWhile_isBlank fun c hc => hcs.last c (List.head?_reverse ▸ hc), List.reverse_reverse]
  rw [trim, trimStart, List.append_assoc, List.dropWhile_append_of_pos hbefore]
  cases cs with
  | nil =>
    have hnone : (after ++ []).dropWhile isBlank = [] := List.dropWhile_append_of_pos hafter
    rw [List.append_nil] at hnone
    rw [List.nil_append, hnone]
    rfl
  | cons c cs =>
    have hfirst : (c :: cs ++ after).dropWhile isBlank = c :: cs ++ after :=
      dropWhile_isBlank fun d hd => hcs.head d hd
    rw [hfirst, hend]

theorem trim_indented {indentation cs : List Char} (h : ∀ c ∈ indentation, isBlank c = true)
    (hcs : Bare cs) : trim (indentation ++ cs) = cs := by
  have hpadded : trim (indentation ++ cs ++ []) = cs := trim_padded h (by simp) hcs
  rwa [List.append_nil] at hpadded

theorem dropReturn_indented {indentation cs : List Char} (hcs : Bare cs) (hne : cs ≠ []) :
    dropReturn (indentation ++ cs) = indentation ++ cs := by
  refine if_neg fun hlast => ?_
  rw [List.getLast?_append_of_ne_nil _ hne] at hlast
  exact absurd (hcs.last _ hlast) (by decide)

/-! ## Separators -/

theorem dropBeginning?_eq_some_iff {beginning cs rest : List Char} :
    dropBeginning? beginning cs = some rest ↔ cs = beginning ++ rest := by
  induction beginning generalizing cs with
  | nil => simp [dropBeginning?]
  | cons b beginning ih =>
    cases cs with
    | nil => simp [dropBeginning?]
    | cons c cs =>
      by_cases h : b = c
      · simp [dropBeginning?, h, ih]
      · simp [dropBeginning?, h, Ne.symm h]

theorem dropBeginning?_append (beginning rest : List Char) :
    dropBeginning? beginning (beginning ++ rest) = some rest :=
  dropBeginning?_eq_some_iff.2 rfl

theorem beginsWith_iff {beginning cs : List Char} :
    beginsWith beginning cs = true ↔ beginning <+: cs := by
  rw [beginsWith, Option.isSome_iff_exists]
  exact exists_congr fun rest => dropBeginning?_eq_some_iff.trans eq_comm

theorem occursIn_iff {part cs : List Char} : occursIn part cs = true ↔ part <:+: cs := by
  induction cs with
  | nil => by_cases h : part = [] <;> simp [occursIn, splitOnceText, h]
  | cons c cs ih =>
    rw [List.infix_cons_iff, ← beginsWith_iff, ← ih, occursIn, splitOnceText, beginsWith]
    cases dropBeginning? part (c :: cs) <;> simp [occursIn]

theorem splitOnceText_eq_some {sep cs before after : List Char}
    (h : splitOnceText sep cs = some (before, after)) : cs = before ++ sep ++ after := by
  induction cs generalizing before with
  | nil =>
    rw [splitOnceText] at h
    split_ifs at h with hsep
    cases h
    simp [hsep]
  | cons c cs ih =>
    rw [splitOnceText] at h
    rcases hdrop : dropBeginning? sep (c :: cs) with _ | rest
    · rw [hdrop] at h
      obtain ⟨⟨before', after'⟩, hcs, heq⟩ := Option.map_eq_some_iff.1 h
      cases heq
      rw [ih hcs]
      rfl
    · rw [hdrop] at h
      cases h
      exact dropBeginning?_eq_some_iff.1 hdrop

theorem splitOnceText_append {s : Char} {cs : List Char} (h : s ∉ cs) (sep rest : List Char) :
    splitOnceText (s :: sep) (cs ++ (s :: sep ++ rest)) = some (cs, rest) := by
  induction cs with
  | nil =>
    change splitOnceText (s :: sep) (s :: (sep ++ rest)) = some ([], rest)
    rw [splitOnceText, ← List.cons_append, dropBeginning?_append]
  | cons c cs ih =>
    rw [List.mem_cons, not_or] at h
    rw [List.cons_append, splitOnceText, dropBeginning?, if_neg h.1, ih h.2]
    rfl

theorem rsplitOnceText_eq_some {sep cs before after : List Char}
    (h : rsplitOnceText sep cs = some (before, after)) : cs = before ++ sep ++ after := by
  obtain ⟨⟨after', before'⟩, hcs, heq⟩ := Option.map_eq_some_iff.1 h
  cases heq
  have hreverse := congrArg List.reverse (splitOnceText_eq_some hcs)
  simpa using hreverse

theorem rsplitOnce_append {sep : Char} {cs : List Char} (h : sep ∉ cs) (front : List Char) :
    rsplitOnce sep (front ++ sep :: cs) = some (front, cs) := by
  have hreverse : (front ++ sep :: cs).reverse = cs.reverse ++ sep :: front.reverse := by simp
  rw [rsplitOnce, hreverse, splitOnce_append (by simpa using h)]
  simp

end Text

namespace Backtrace

open Text Numeral

/-! ## Hashes and hidden functions -/

/-- The text at the end of a function that names its build. -/
structure IsHash (hash : List Char) : Prop where
  length : hash.length = 16
  digits : ∀ c ∈ hash, isHexDigit c = true

/-- A function and its name: without the hash at its end, if it has one. -/
inductive Unhashed : List Char → List Char → Prop
  | hashed {name hash : List Char} : IsHash hash → Unhashed (name ++ [':', ':', 'h'] ++ hash) name
  | plain {function : List Char} : (∀ name hash, IsHash hash →
    function ≠ name ++ [':', ':', 'h'] ++ hash) → Unhashed function function

/-- **The hash at the end of a function is dropped**, and nothing else. -/
theorem unhashed_dropHash (function : List Char) : Unhashed function (dropHash function) := by
  by_cases h : ∃ name hash, IsHash hash ∧ function = name ++ [':', ':', 'h'] ++ hash
  · obtain ⟨name, hash, hhash, rfl⟩ := h
    -- no digit of the hash is an h, so the last separator is the one before it
    have hmem : 'h' ∉ hash.reverse := fun hh =>
      absurd (hhash.digits 'h' (List.mem_reverse.1 hh)) (by decide)
    have hreverse : (name ++ [':', ':', 'h'] ++ hash).reverse =
        hash.reverse ++ ('h' :: [':', ':'] ++ name.reverse) := by simp
    have hsplit : rsplitOnceText [':', ':', 'h'] (name ++ [':', ':', 'h'] ++ hash) =
        some (name, hash) := by
      rw [rsplitOnceText, hreverse]
      change (splitOnceText ('h' :: [':', ':']) _).map _ = _
      rw [splitOnceText_append hmem]
      simp
    have hdigits : hash.all isHexDigit = true := List.all_eq_true.2 hhash.digits
    rw [dropHash, hsplit]
    simp only [hhash.length, hdigits, and_self, if_true]
    exact .hashed hhash
  · have hplain : ∀ name hash, IsHash hash → function ≠ name ++ [':', ':', 'h'] ++ hash :=
      fun name hash hhash heq => h ⟨name, hash, hhash, heq⟩
    have hdrop : dropHash function = function := by
      unfold dropHash
      split
      next name hash hsplit =>
        refine if_neg fun hhash => ?_
        exact hplain name hash ⟨hhash.1, List.all_eq_true.1 hhash.2⟩ (rsplitOnceText_eq_some hsplit)
      next => rfl
    rw [hdrop]
    exact .plain hplain

/-- A function of the runtime or of the worker around a test. -/
def IsHidden (function : String) : Prop :=
  (∃ b ∈ hiddenBeginnings, b.toList <+: function.toList) ∨
    (['<'] <+: function.toList ∧ " as core::".toList <:+: function.toList)

theorem isMachinery_iff {function : String} : isMachinery function = true ↔ IsHidden function := by
  simp [isMachinery, IsHidden, beginsWith_iff, occursIn_iff]

instance (function : String) : Decidable (IsHidden function) :=
  decidable_of_iff _ isMachinery_iff

/-! ## The text of a backtrace -/

/-- Blanks at the beginning of a line. -/
def IsIndentation (cs : List Char) : Prop := ∀ c ∈ cs, isBlank c = true ∧ c ≠ '\n'

/-- A place in the source, as a backtrace shows it; any character of the file but a newline. -/
structure PlaceText where
  indentation : List Char
  file : String
  line : UInt32
  column : Nat
  indented : IsIndentation indentation
  unbroken : '\n' ∉ file.toList

/-- A frame, as a backtrace shows it, with its place if that is known. -/
structure FrameText where
  indentation : List Char
  /-- The digits of its number. -/
  number : List Char
  function : String
  place? : Option PlaceText
  indented : IsIndentation indentation
  number_ne : number ≠ []
  digits : ∀ c ∈ number, c.isDigit = true
  function_ne : function.toList ≠ []
  bare : Bare function.toList
  unbroken : '\n' ∉ function.toList

/-- The line of a place, without the blanks before it. -/
def PlaceText.chars (p : PlaceText) : List Char :=
  ['a', 't', ' '] ++ (p.file.toList ++ ':' :: decimal p.line.toNat ++ ':' :: decimal p.column)

/-- The line of a function, without the blanks before it. -/
def FrameText.chars (w : FrameText) : List Char := w.number ++ ([':', ' '] ++ w.function.toList)

/-- The lines of a frame. -/
def FrameText.lines (w : FrameText) : List (List Char) :=
  (w.indentation ++ w.chars) :: w.place?.toList.map fun p => p.indentation ++ p.chars

/-- The text of a backtrace. -/
def rendered (ended : Bool) (ws : List FrameText) : String :=
  String.ofList (unlines ended (ws.flatMap FrameText.lines))

/-- What is read of a frame. -/
def FrameText.frame (w : FrameText) : StackFrame where
  file := w.place?.elim "<unknown>" PlaceText.file
  line := w.place?.elim 0 PlaceText.line
  function := String.ofList (dropHash w.function.toList)
  locals := []

/-- A frame as it should be read: with its own place if it has one, and without values. -/
structure FrameText.Shows (w : FrameText) (f : StackFrame) : Prop where
  function : Unhashed w.function.toList f.function.toList
  file : f.file = w.place?.elim "<unknown>" PlaceText.file
  line : f.line = w.place?.elim 0 PlaceText.line
  locals : f.locals = []

theorem FrameText.shows_frame (w : FrameText) : w.Shows w.frame :=
  ⟨by rw [frame, String.toList_ofList]; exact unhashed_dropHash _, rfl, rfl, rfl⟩

/-! ## Lines are what they show -/

theorem newline_not_mem_decimal (n : Nat) : '\n' ∉ decimal n :=
  Position.not_mem_decimal (by decide) n

theorem colon_not_mem_decimal (n : Nat) : ':' ∉ decimal n :=
  Position.not_mem_decimal (by decide) n

theorem IsIndentation.newline_not_mem {cs : List Char} (h : IsIndentation cs) : '\n' ∉ cs :=
  fun hmem => (h '\n' hmem).2 rfl

namespace PlaceText

variable (p : PlaceText)

theorem chars_ne_nil : p.chars ≠ [] := List.cons_ne_nil _ _

theorem bare_chars : Bare p.chars where
  head c hc := by
    cases hc
    rfl
  last c hc := by
    have hchars : p.chars =
        (['a', 't', ' '] ++ p.file.toList ++ ':' :: decimal p.line.toNat ++ [':']) ++
          decimal p.column := by simp [chars]
    rw [hchars, List.getLast?_append_of_ne_nil _ (decimal_ne_nil p.column)] at hc
    exact isBlank_of_isDigit (isDigit_of_mem_decimal (List.mem_of_getLast? hc))

theorem newline_not_mem : '\n' ∉ p.indentation ++ p.chars := by
  simp [chars, p.indented.newline_not_mem, p.unbroken, newline_not_mem_decimal]

theorem place?_eq :
    place? (p.file.toList ++ ':' :: decimal p.line.toNat ++ ':' :: decimal p.column) =
      some (p.file.toList, p.line) := by
  rw [place?, rsplitOnce_append (colon_not_mem_decimal p.column)]
  simp [rsplitOnce_append (colon_not_mem_decimal p.line.toNat),
    readDecimal?_decimal p.line.toNat_lt]

theorem addLine_eq (f : StackFrame) (frames : List StackFrame) :
    addLine (f :: frames) (p.indentation ++ p.chars) =
      { f with file := p.file, line := p.line } :: frames := by
  have hline : Line.of (p.indentation ++ p.chars) =
      .place (p.file.toList ++ ':' :: decimal p.line.toNat ++ ':' :: decimal p.column) := by
    rw [Line.of, trim_indented (fun c hc => (p.indented c hc).1) p.bare_chars]
    simp only [chars, dropBeginning?_append]
  simp only [addLine, hline, place?_eq, String.ofList_toList]

end PlaceText

namespace FrameText

variable (w : FrameText)

theorem exists_digit : ∃ c cs, w.number = c :: cs ∧ c.isDigit = true := by
  obtain ⟨c, cs, hnumber⟩ := List.exists_cons_of_ne_nil w.number_ne
  exact ⟨c, cs, hnumber, w.digits c (hnumber ▸ List.mem_cons_self)⟩

theorem chars_ne_nil : w.chars ≠ [] := by simp [chars]

theorem bare_chars : Bare w.chars where
  head c hc := by
    obtain ⟨d, cs, hnumber, hdigit⟩ := w.exists_digit
    rw [chars, hnumber] at hc
    cases hc
    exact isBlank_of_isDigit hdigit
  last c hc := by
    rw [chars, ← List.append_assoc, List.getLast?_append_of_ne_nil _ w.function_ne] at hc
    exact w.bare.last c hc

theorem not_mem_number {c : Char} (h : c.isDigit = false) : c ∉ w.number := fun hc => by
  rw [w.digits c hc] at h
  cases h

theorem newline_not_mem : '\n' ∉ w.indentation ++ w.chars := by
  simp [chars, w.indented.newline_not_mem, w.not_mem_number (c := '\n') rfl, w.unbroken]

theorem addLine_eq (frames : List StackFrame) :
    addLine frames (w.indentation ++ w.chars) =
      StackFrame.unknown (String.ofList (dropHash w.function.toList)) :: frames := by
  have hplace : dropBeginning? ['a', 't', ' '] w.chars = none := by
    obtain ⟨c, cs, hnumber, hdigit⟩ := w.exists_digit
    have hne : 'a' ≠ c := by
      rintro rfl
      cases hdigit
    rw [chars, hnumber, List.cons_append, dropBeginning?, if_neg hne]
  have hsplit : splitOnceText [':', ' '] w.chars = some (w.number, w.function.toList) :=
    splitOnceText_append (w.not_mem_number rfl) [' '] _
  have hnumber : w.number ≠ [] ∧ w.number.all Char.isDigit = true :=
    ⟨w.number_ne, List.all_eq_true.2 w.digits⟩
  have hline : Line.of (w.indentation ++ w.chars) = .function w.function.toList := by
    rw [Line.of, trim_indented (fun c hc => (w.indented c hc).1) w.bare_chars]
    simp only [hplace, hsplit, if_pos hnumber]
  rw [addLine, hline]

/-- **The lines of a frame are read as that frame**, whatever stands above. -/
theorem foldl_lines (frames : List StackFrame) :
    w.lines.foldl addLine frames = w.frame :: frames := by
  rw [lines, List.foldl_cons, addLine_eq]
  rcases hplace : w.place? with _ | p
  · simp [frame, hplace, StackFrame.unknown]
  · simp [frame, hplace, StackFrame.unknown, p.addLine_eq]

theorem forall_mem_lines {P : List Char → Prop} (hfunction : P (w.indentation ++ w.chars))
    (hplace : ∀ p : PlaceText, P (p.indentation ++ p.chars)) : ∀ l ∈ w.lines, P l := by
  simp only [lines, List.forall_mem_cons, List.forall_mem_map]
  exact ⟨hfunction, fun p _ => hplace p⟩

end FrameText

/-! ## Reading back -/

theorem foldl_rendered (ws : List FrameText) (frames : List StackFrame) :
    (ws.flatMap FrameText.lines).foldl addLine frames =
      (ws.map FrameText.frame).reverse ++ frames := by
  induction ws generalizing frames with
  | nil => rfl
  | cons w ws ih => simp [w.foldl_lines, ih]

theorem lines_rendered (ended : Bool) (ws : List FrameText) :
    lines (rendered ended ws).toList = ws.flatMap FrameText.lines := by
  have hall {P : List Char → Prop} (hfunction : ∀ w : FrameText, P (w.indentation ++ w.chars))
      (hplace : ∀ p : PlaceText, P (p.indentation ++ p.chars)) :
      ∀ l ∈ ws.flatMap FrameText.lines, P l := by
    intro l hl
    obtain ⟨w, -, hl⟩ := List.mem_flatMap.1 hl
    exact w.forall_mem_lines (hfunction w) hplace l hl
  rw [rendered, String.toList_ofList]
  refine lines_unlines (hall FrameText.newline_not_mem PlaceText.newline_not_mem) ?_ ?_ ended
  · exact hall (fun w => List.append_ne_nil_of_right_ne_nil _ w.chars_ne_nil)
      fun p => List.append_ne_nil_of_right_ne_nil _ p.chars_ne_nil
  · exact hall (fun w => dropReturn_indented w.bare_chars w.chars_ne_nil)
      fun p => dropReturn_indented p.bare_chars p.chars_ne_nil

/-- **A backtrace is read back.** However its lines are indented and its frames numbered, the frames
of a backtrace are read in the reverse of their order, each with its own place, without the hash of
its function and without values; only the hidden ones are left out. -/
theorem parse_rendered (ended : Bool) (ws : List FrameText) :
    ∃ frames, List.Forall₂ FrameText.Shows ws frames ∧
      parse (rendered ended ws) = (frames.filter fun f => ¬IsHidden f.function).reverse := by
  refine ⟨ws.map FrameText.frame, ?_, ?_⟩
  · rw [List.forall₂_map_right_iff]
    exact List.forall₂_same.2 fun w _ => w.shows_frame
  · have hvisible : (fun f : StackFrame => !isMachinery f.function) =
        fun f => decide ¬IsHidden f.function := by
      funext f
      rw [Bool.eq_iff_iff]
      simp [← isMachinery_iff]
    rw [parse, lines_rendered, foldl_rendered, List.append_nil, List.filter_reverse, hvisible]

/-- The colons in the name of a file do not shift a place, nor does a frame without one take that of
its neighbour. -/
example : parse "  0: std::panic\n at r:1:1\n 1: t::f::h0123456789abcdef\n at a b: c:7:9\n2: main" =
    [⟨"<unknown>", 0, "main", []⟩, ⟨"a b: c", 7, "t::f", []⟩] := by decide +kernel

end Backtrace

end FuzzCampaign
