import FuzzCampaign.Path
import FuzzCampaign.Proofs.PositionText
import FuzzCampaign.TestCase
import Mathlib.Tactic.SplitIfs

/-!
# Names of log files

The name of a log file is the name of a file and nothing else, whatever the test is called: joined
to a directory it is a file of that directory. Two workers of a test never share one.

* `Path.Part`, `Path.parts`: what a path leads through;
* `Path.parts_join`: a plain name below a directory;
* `TestCase.toList_logFile`, `TestCase.logFile_inj`: names of log files differ by their indexes;
* `TestCase.IsPortable`, `TestCase.isPortable_of_mem_logFile`: the characters of the names;
* **`TestCase.logFile_confined`**: all of it.
-/

namespace FuzzCampaign

/-! ## Paths -/

namespace Path

/-- A step of a path: to the root, to where one stands, one directory up, or to an entry. -/
inductive Part
  | root
  | here
  | above
  | entry (name : String)
  deriving DecidableEq, Repr

/-- What a text between two slashes stands for; empty ones and single dots lead nowhere. -/
def Part.ofSegment? : List Char → Option Part
  | [] => none
  | ['.'] => none
  | ['.', '.'] => some .above
  | cs => some (.entry (String.ofList cs))

/-- What the text in front of a path stands for, with a slash behind it or not. A slash in front of
all leads to the root, and a single dot counts here. -/
def Part.ofFront? (slash : Bool) : List Char → Option Part
  | [] => if slash then some .root else none
  | ['.'] => some .here
  | cs => ofSegment? cs

/-- The steps of a path that is cut at its slashes. -/
def Part.ofSegments : List (List Char) → List Part
  | [] => []
  | front :: rest => (ofFront? (rest ≠ []) front).toList ++ rest.filterMap ofSegment?

/-- The steps of a path. -/
def parts (path : String) : List Part := Part.ofSegments (path.toList.splitOn '/')

/-- A name that is neither empty nor stands for a directory, and holds no slash. -/
structure IsPlain (name : String) : Prop where
  ne_empty : name ≠ ""
  ne_here : name ≠ "."
  ne_above : name ≠ ".."
  slash : '/' ∉ name.toList

theorem IsPlain.ofSegment?_eq {name : String} (h : IsPlain name) :
    Part.ofSegment? name.toList = some (.entry name) := by
  unfold Part.ofSegment?
  split
  · rename_i hname
    exact absurd (String.toList_inj.1 hname) h.ne_empty
  · rename_i hname
    exact absurd (String.toList_inj.1 hname) h.ne_here
  · rename_i hname
    exact absurd (String.toList_inj.1 hname) h.ne_above
  · rw [String.ofList_toList]

theorem IsPlain.ofFront?_eq {name : String} (h : IsPlain name) (slash : Bool) :
    Part.ofFront? slash name.toList = some (.entry name) := by
  unfold Part.ofFront?
  split
  · rename_i hname
    exact absurd (String.toList_inj.1 hname) h.ne_empty
  · rename_i hname
    exact absurd (String.toList_inj.1 hname) h.ne_here
  · exact h.ofSegment?_eq

theorem IsPlain.parts_eq {name : String} (h : IsPlain name) : parts name = [.entry name] := by
  rw [parts, List.splitOn_eq_singleton h.slash, Part.ofSegments, h.ofFront?_eq]
  rfl

/-- The steps of a path that ends in a segment of its own. -/
theorem Part.ofSegments_snoc (front : List Char) (rest : List (List Char)) (cs : List Char) :
    ofSegments (front :: (rest ++ [cs])) =
      (ofFront? true front).toList ++ rest.filterMap ofSegment? ++ (ofSegment? cs).toList := by
  have hslash : decide (rest ++ [cs] ≠ []) = true := by simp
  rw [ofSegments, hslash, List.filterMap_append, List.append_assoc]
  cases hcs : ofSegment? cs <;> simp [hcs]

/-- The text in front is not empty unless a slash stands behind it. -/
theorem ofFront?_of_splitOn {path : List Char} (hne : path ≠ []) {front : List Char}
    {rest : List (List Char)} (h : path.splitOn '/' = front :: rest) :
    Part.ofFront? (rest ≠ []) front = Part.ofFront? true front := by
  by_cases hrest : rest = []
  · subst hrest
    have hfront : front = path := by
      have hjoined : ['/'].intercalate (path.splitOn '/') = path := List.intercalate_splitOn '/'
      rw [← hjoined, h]
      simp
    subst hfront
    obtain ⟨c, cs, rfl⟩ := List.exists_cons_of_ne_nil hne
    unfold Part.ofFront?
    split <;> simp_all
  · rw [decide_eq_true hrest]

/-- **A plain name below a directory is one more step than the directory.** -/
theorem parts_join (dir : String) {name : String} (h : IsPlain name) :
    parts (join dir name) = parts dir ++ [.entry name] := by
  have hstart : name.startsWith "/" = false := by
    rw [String.startsWith_string_eq_false_iff]
    exact fun hslash => h.slash (hslash.subset (List.mem_singleton_self _))
  have hname : name.toList.splitOn '/' = [name.toList] := List.splitOn_eq_singleton h.slash
  unfold join
  rw [hstart]
  simp only [Bool.false_eq_true, if_false]
  split_ifs with hempty hend
  · subst hempty
    exact h.parts_eq
  · -- the slash at the end of the directory has an empty segment behind it, which the name fills
    rw [String.endsWith_eq_endsWith_toSlice, String.Slice.endsWith_string_iff] at hend
    obtain ⟨d, hd⟩ := hend
    have hdir : dir.toList = d ++ '/' :: [] := by
      rw [String.copy_toSlice] at hd
      exact hd.symm
    obtain ⟨front, rest, hcut⟩ := List.exists_cons_of_ne_nil (List.splitOn_ne_nil '/' d)
    have hbare : parts dir = Part.ofSegments (front :: (rest ++ [[]])) := by
      rw [parts, hdir, List.splitOn_append_cons_self, hcut, List.splitOn_nil, List.cons_append]
    have hfull : parts (dir ++ name) = Part.ofSegments (front :: (rest ++ [name.toList])) := by
      rw [parts, String.toList_append, hdir, List.append_assoc, List.cons_append, List.nil_append,
        List.splitOn_append_cons_self, hcut, hname, List.cons_append]
    rw [hbare, hfull, Part.ofSegments_snoc, Part.ofSegments_snoc, h.ofSegment?_eq]
    simp [Part.ofSegment?]
  · have hdir : dir.toList ≠ [] := fun hnil => hempty (String.toList_inj.1 hnil)
    obtain ⟨front, rest, hcut⟩ := List.exists_cons_of_ne_nil (List.splitOn_ne_nil '/' dir.toList)
    have hfull : parts (dir ++ "/" ++ name) =
        Part.ofSegments (front :: (rest ++ [name.toList])) := by
      have hlist : (dir ++ "/" ++ name).toList = dir.toList ++ '/' :: name.toList := by
        simp
      rw [parts, hlist, List.splitOn_append_cons_self, hcut, hname, List.cons_append]
    rw [hfull, Part.ofSegments_snoc, h.ofSegment?_eq, parts, hcut, Part.ofSegments,
      ofFront?_of_splitOn hdir hcut]
    rfl

end Path

/-! ## Log files -/

namespace TestCase

/-- A character in the name of a log file, with another one in its place if it is not safe. -/
def cleaned (c : Char) : Char := if isSafe c then c else '_'

/-- The part of the names of log files that all workers of a test share. -/
def logStem (t : TestCase) : List Char :=
  (List.map cleaned
    (Text.replace [':', ':'] ['.'] t.modulePath.toList ++ '.' :: t.name.toList)).dropWhile
      (· = '.')

theorem dropWhile_dots_append (cs rest : List Char) :
    (cs ++ '_' :: rest).dropWhile (· = '.') = cs.dropWhile (· = '.') ++ '_' :: rest := by
  induction cs with
  | nil => rfl
  | cons c cs ih =>
    rw [List.cons_append, List.dropWhile_cons, List.dropWhile_cons, ih]
    split_ifs <;> rfl

theorem cleaned_of_mem_decimal {n : Nat} {c : Char} (h : c ∈ Numeral.decimal n) :
    cleaned c = c := by
  have hdigit := Numeral.isDigit_of_mem_decimal h
  rw [cleaned, if_pos (by simp [isSafe, Char.isAlphanum, hdigit])]

/-- A log file is named after the test and the index. Leading dots are dropped before the index. -/
theorem toList_logFile (t : TestCase) (index : UInt64) :
    (t.logFile index).toList = t.logStem ++
      '_' :: (Numeral.decimal index.toNat ++ ".ansi".toList) := by
  have hsuffix : s!"_{index}.{logSuffix}".toList =
      '_' :: (Numeral.decimal index.toNat ++ ".ansi".toList) := by
    have htoString : toString index = index.toNat.repr := rfl
    simp only [htoString, logSuffix, String.toList_append, Nat.toList_repr, List.append_assoc]
    rfl
  have hclean : ('_' :: (Numeral.decimal index.toNat ++ ".ansi".toList)).map cleaned =
      '_' :: (Numeral.decimal index.toNat ++ ".ansi".toList) := by
    rw [List.map_cons, List.map_append, List.map_congr_left fun c => cleaned_of_mem_decimal,
      List.map_id']
    rfl
  have hlogFile : t.logFile index = String.ofList (((Text.replace [':', ':'] ['.']
      t.modulePath.toList ++ '.' :: t.name.toList ++ s!"_{index}.{logSuffix}".toList).map
        cleaned).dropWhile (· = '.')) := rfl
  rw [hlogFile, hsuffix, String.toList_ofList, List.map_append, hclean, dropWhile_dots_append,
    logStem]

/-- **The names of a test's log files differ by their indexes.** -/
theorem logFile_inj (t : TestCase) {i j : UInt64} (h : t.logFile i = t.logFile j) : i = j := by
  have hlist := congrArg String.toList h
  rw [toList_logFile, toList_logFile, List.append_cancel_left_eq, List.cons.injEq,
    List.append_cancel_right_eq] at hlist
  have hvalue := congrArg (Nat.ofDigitChars 10 · 0) hlist.2
  unfold Numeral.decimal at hvalue
  rw [Nat.ofDigitChars_ten_toDigits, Nat.ofDigitChars_ten_toDigits] at hvalue
  exact UInt64.toNat_inj.1 hvalue

/-- A character that is the same on every file system: a letter or a digit of ASCII, a dot, an
underscore or a hyphen. -/
def IsPortable (c : Char) : Prop :=
  'a' ≤ c ∧ c ≤ 'z' ∨ 'A' ≤ c ∧ c ≤ 'Z' ∨ '0' ≤ c ∧ c ≤ '9' ∨ c = '.' ∨ c = '_' ∨ c = '-'

theorem isPortable_cleaned (c : Char) : IsPortable (cleaned c) := by
  unfold cleaned
  split_ifs with h
  · simp only [isSafe, Char.isAlphanum, Bool.or_eq_true, decide_eq_true_eq] at h
    rcases h with ((((hletter | hdigit) | hdot) | hunderscore) | hhyphen)
    · rcases Bool.or_eq_true_iff.1 hletter with hupper | hlower
      · exact .inr (.inl (of_decide_eq_true hupper))
      · obtain ⟨hlow, hhigh⟩ := Bool.and_eq_true_iff.1 hlower
        exact .inl ⟨of_decide_eq_true hlow, of_decide_eq_true hhigh⟩
    · exact .inr (.inr (.inl (Numeral.bounds_of_isDigit hdigit)))
    · exact .inr (.inr (.inr (.inl hdot)))
    · exact .inr (.inr (.inr (.inr (.inl hunderscore))))
    · exact .inr (.inr (.inr (.inr (.inr hhyphen))))
  · exact .inr (.inr (.inr (.inr (.inl rfl))))

theorem isPortable_of_mem_logFile {t : TestCase} {index : UInt64} {c : Char}
    (h : c ∈ (t.logFile index).toList) : IsPortable c := by
  unfold logFile at h
  rw [String.toList_ofList] at h
  obtain ⟨d, -, rfl⟩ := List.mem_map.1 ((List.dropWhile_sublist _).subset h)
  exact isPortable_cleaned d

theorem head?_dropWhile_dots (cs : List Char) : (cs.dropWhile (· = '.')).head? ≠ some '.' := by
  intro hdot
  have hfirst := List.head?_dropWhile_not (· = '.') cs
  rw [hdot] at hfirst
  simp at hfirst

theorem head?_logFile (t : TestCase) (index : UInt64) :
    (t.logFile index).toList.head? ≠ some '.' := by
  unfold logFile
  rw [String.toList_ofList]
  exact head?_dropWhile_dots _

/-- The name of a log file is plain: it has no slash, and a single or double dot would begin with a
dot. -/
theorem isPlain_logFile (t : TestCase) (index : UInt64) : Path.IsPlain (t.logFile index) := by
  have hdot := t.head?_logFile index
  refine ⟨fun hempty => ?_, fun hhere => ?_, fun habove => ?_, fun hslash => ?_⟩
  · have hlist := t.toList_logFile index
    simp [hempty] at hlist
  · rw [hhere] at hdot
    exact hdot rfl
  · rw [habove] at hdot
    exact hdot rfl
  · exact absurd (isPortable_of_mem_logFile hslash) (by unfold IsPortable; decide)

theorem startsWith_logFile (t : TestCase) (index : UInt64) :
    (t.logFile index).startsWith "/" = false := by
  rw [String.startsWith_string_eq_false_iff]
  exact fun hslash => (t.isPlain_logFile index).slash (hslash.subset (List.mem_singleton_self _))

/-- A name that is good for the log file of the worker with an index: it ends in the index, and it
leads to an entry of whatever directory it is joined to. -/
structure NamesLog (index : UInt64) (name : String) : Prop where
  ne_empty : name ≠ ""
  portable : ∀ c ∈ name.toList, IsPortable c
  not_hidden : name.toList.head? ≠ some '.'
  ending : ∃ stem, name = stem ++ "_" ++ toString index.toNat ++ ".ansi"
  no_directory : name ≠ "." ∧ name ≠ ".."
  alone : Path.parts name = [.entry name]
  below : ∀ dir, Path.parts (Path.join dir name) = Path.parts dir ++ [.entry name]

/-- **The names of log files stay in their directory**, whatever the module and the test are called,
and the workers of a test get different ones. -/
theorem logFile_confined (t : TestCase) :
    (∀ index, NamesLog index (t.logFile index)) ∧ Function.Injective t.logFile := by
  refine ⟨fun index => ?_, fun i j h => t.logFile_inj h⟩
  have hplain := t.isPlain_logFile index
  refine ⟨hplain.ne_empty, fun c => isPortable_of_mem_logFile, t.head?_logFile index,
    ⟨String.ofList t.logStem, ?_⟩, ⟨hplain.ne_here, hplain.ne_above⟩, hplain.parts_eq,
    fun dir => Path.parts_join dir hplain⟩
  rw [← String.toList_inj, toList_logFile]
  simp [Numeral.decimal]

/-- A test cannot lead out of the directory, and without a module its name does not begin with a
dot. -/
example : (⟨"..::..", "../etc", []⟩ : TestCase).logFile 7 = "_etc_7.ansi" ∧
    (⟨"", "", []⟩ : TestCase).logFile 0 = "_0.ansi" := by
  decide +kernel

end TestCase

end FuzzCampaign
