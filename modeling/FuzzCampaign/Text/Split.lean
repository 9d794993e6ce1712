/-!
# Cutting text

Texts are cut at separators, into lines, and at their ends.

* `splitOnce`, `splitOnceText`, `rsplitOnceText`: the first or last occurrence of a separator;
* `lines`: the lines of a text, each without its line end;
* `isBlank`, `trim`: the characters of the Unicode property White_Space, and a text without them at
  its two ends.
-/

namespace FuzzCampaign

namespace Text

/-- The parts before and after the first `sep`, if there is one. -/
def splitOnce (sep : Char) : List Char → Option (List Char × List Char)
  | [] => none
  | c :: r => if c = sep then some ([], r) else (splitOnce sep r).map fun p => (c :: p.1, p.2)

/-- The rest of a text after the given beginning. -/
def dropBeginning? : List Char → List Char → Option (List Char)
  | [], cs => some cs
  | _ :: _, [] => none
  | s :: ss, c :: cs => if s = c then dropBeginning? ss cs else none

/-- The parts before and after the first occurrence of the text `sep`. -/
def splitOnceText (sep : List Char) : List Char → Option (List Char × List Char)
  | [] => if sep = [] then some ([], []) else none
  | c :: r =>
    match dropBeginning? sep (c :: r) with
    | some rest => some ([], rest)
    | none => (splitOnceText sep r).map fun p => (c :: p.1, p.2)

/-- The parts before and after the last occurrence of the text `sep`. -/
def rsplitOnceText (sep : List Char) (cs : List Char) : Option (List Char × List Char) :=
  (splitOnceText sep.reverse cs.reverse).map fun p => (p.2.reverse, p.1.reverse)

/-- The parts before and after the last `sep`, if there is one. -/
def rsplitOnce (sep : Char) (cs : List Char) : Option (List Char × List Char) :=
  (splitOnce sep cs.reverse).map fun p => (p.2.reverse, p.1.reverse)

/-- Whether a text begins with another. -/
def beginsWith (beginning cs : List Char) : Bool := (dropBeginning? beginning cs).isSome

/-- Whether a text occurs in another. -/
def occursIn (part cs : List Char) : Bool := (splitOnceText part cs).isSome

/-- Every occurrence of `old` replaced by `new`, from the left and without overlaps; `skip` counts
the characters that belong to an occurrence already replaced. -/
def replaceFrom (old new : List Char) : Nat → List Char → List Char
  | _, [] => []
  | skip + 1, _ :: r => replaceFrom old new skip r
  | 0, c :: r =>
    if beginsWith old (c :: r) then new ++ replaceFrom old new (old.length - 1) r
    else c :: replaceFrom old new 0 r

/-- Every occurrence of the non-empty text `old` replaced by `new`. -/
def replace (old new cs : List Char) : List Char := replaceFrom old new 0 cs

/-- A line without the carriage return at its end. -/
def dropReturn (line : List Char) : List Char :=
  if line.getLast? = some '\r' then line.dropLast else line

/-- The parts of a text between newlines; the last part is the text after the last newline. -/
def splitLines : List Char → List (List Char)
  | [] => [[]]
  | '\n' :: r => [] :: splitLines r
  | c :: r =>
    match splitLines r with
    | [] => [[c]]
    | l :: ls => (c :: l) :: ls

/-- The lines of a text: a line ends in a newline, with or without a carriage return before it, and
an unfinished last line counts if it is not empty. -/
def lines (cs : List Char) : List (List Char) :=
  let parts := splitLines cs
  let ended := parts.dropLast.map dropReturn
  match parts.getLast? with
  | none | some [] => ended
  | some last => ended ++ [last]

/-- The characters of the Unicode property White_Space. -/
def isBlank (c : Char) : Bool :=
  let n := c.toNat
  (9 ≤ n && n ≤ 13) || n == 0x20 || n == 0x85 || n == 0xA0 || n == 0x1680 ||
    (0x2000 ≤ n && n ≤ 0x200A) || n == 0x2028 || n == 0x2029 || n == 0x202F || n == 0x205F ||
    n == 0x3000

/-- A text without the blanks at its beginning. -/
def trimStart (cs : List Char) : List Char := cs.dropWhile isBlank

/-- A text without the blanks at its end. -/
def trimEnd (cs : List Char) : List Char := (cs.reverse.dropWhile isBlank).reverse

/-- A text without the blanks at its two ends. -/
def trim (cs : List Char) : List Char := trimEnd (trimStart cs)

/-- The words of a text: its longest stretches without blanks. -/
def words (cs : List Char) : List (List Char) :=
  (cs.foldr (fun c (acc : List (List Char)) =>
    if isBlank c then [] :: acc
    else match acc with
      | [] => [[c]]
      | w :: ws => (c :: w) :: ws) [[]]).filter (· ≠ [])

/-- A text followed by as many spaces as it has characters fewer than `width`. -/
def padEnd (width : Nat) (s : String) : String :=
  s ++ String.ofList (List.replicate (width - s.length) ' ')

/-- Texts joined by a separator. -/
def join (sep : String) (parts : List String) : String := sep.intercalate parts

end Text

end FuzzCampaign
