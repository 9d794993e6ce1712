import FuzzCampaign.Proofs.NumeralText
import FuzzCampaign.Proofs.TextBytes
import FuzzCampaign.Worker.Debugging
import Mathlib.Tactic.FinCases

/-!
# Sessions of the debugger

A session over a text carries out its lines one after the other, up to the first that quits or to
the end of the text, and ends with success. The selected frame is always one of the failure, if
there is any, and moves only as a command says.

* `DebugCommand.word?`, `DebugCommand.argument?`, `DebugCommand.parse_eq_iff`: the words of a line;
* `DebugState.inputLines`, `DebugState.takeLine_encode`: the lines of an input;
* `DebugState.Turn`, `DebugState.turns`, `DebugState.commands_eq`: what a session does, line by
  line;
* `DebugState.Turn.Sound`, `DebugState.sound_of_mem_turns`: what a command does to the selection,
  and what it shows;
* **`DebugState.session_walks`**: whole sessions.
-/

namespace FuzzCampaign

/-! ## The words of a line -/

namespace DebugCommand

/-- The word that a line begins with. -/
def word? (line : List Char) : Option String := (Text.words line).head?.map String.ofList

/-- The word behind it. -/
def argument? (line : List Char) : Option String := (Text.words line)[1]?.map String.ofList

/-- Whether a line begins with one of these words. -/
def begins (line : List Char) (ws : List String) : Bool := (word? line).any (· ∈ ws)

/-- The words that ask for a command. -/
def words : DebugCommand → List String
  | .nothing => []
  | .stack => ["where", "bt"]
  | .frame _ => ["frame", "f"]
  | .up => ["up", "u"]
  | .down => ["down", "d"]
  | .locals => ["locals", "l"]
  | .print _ => ["print", "p"]
  | .help => ["help", "h"]
  | .quit => ["continue", "c", "quit", "q"]
  | .unknown word => [word]

theorem parse_of_word?_none {line : List Char} (h : word? line = none) : parse line = .nothing := by
  unfold word? at h
  rw [Option.map_eq_none_iff, List.head?_eq_none_iff] at h
  rw [parse, h]
  rfl

theorem parse_of_word? {line : List Char} {w : String} (h : word? line = some w) :
    parse line = ofWords w (argument? line) := by
  unfold word? at h
  obtain ⟨cs, hcs, rfl⟩ := Option.map_eq_some_iff.1 h
  obtain ⟨rest, hwords⟩ := List.head?_eq_some_iff.1 hcs
  rw [parse, argument?, hwords]
  cases rest <;> rfl

theorem ofWords_eq_iff {c : DebugCommand} (hc : c ∈ [stack, up, down, locals, help, quit])
    {w : String}
    {argument : Option String} : ofWords w argument = c ↔ w ∈ c.words := by
  fin_cases hc <;> fun_cases ofWords w argument <;> simp_all [words]

theorem ofWords_eq_frame_iff {w : String} {argument : Option String} {n? : Option Nat} :
    ofWords w argument = .frame n? ↔
      w ∈ ["frame", "f"] ∧ argument.bind (fun a => Numeral.readDecimal? word64 a.toList) = n? := by
  fun_cases ofWords w argument <;> simp_all

theorem ofWords_eq_print_iff {w : String} {argument name? : Option String} :
    ofWords w argument = .print name? ↔ w ∈ ["print", "p"] ∧ argument = name? := by
  fun_cases ofWords w argument <;> simp_all

/-- What a line asks for hangs on its first word, for a command without an argument. -/
theorem parse_eq_iff {line : List Char} {c : DebugCommand}
    (hc : c ∈ [stack, up, down, locals, help, quit]) :
    parse line = c ↔ begins line c.words = true := by
  unfold begins
  cases h : word? line with
  | none =>
    rw [parse_of_word?_none h]
    fin_cases hc <;> simp
  | some w =>
    rw [parse_of_word? h, ofWords_eq_iff hc]
    simp

theorem parse_eq_frame_iff {line : List Char} {n? : Option Nat} :
    parse line = .frame n? ↔ begins line ["frame", "f"] = true ∧
      (argument? line).bind (fun a => Numeral.readDecimal? word64 a.toList) = n? := by
  unfold begins
  cases h : word? line with
  | none => simp [parse_of_word?_none h]
  | some w => simp [parse_of_word? h, ofWords_eq_frame_iff]

theorem parse_eq_print_iff {line : List Char} {name? : Option String} :
    parse line = .print name? ↔ begins line ["print", "p"] = true ∧ argument? line = name? := by
  unfold begins
  cases h : word? line with
  | none => simp [parse_of_word?_none h]
  | some w => simp [parse_of_word? h, ofWords_eq_print_iff]

theorem begins_eq_true_iff {line : List Char} {ws : List String} :
    begins line ws = true ↔ ∃ w ∈ ws, word? line = some w := by
  unfold begins
  cases word? line <;> simp

theorem begins_mono {line : List Char} {ws ws' : List String} (h : begins line ws = true)
    (hws : ws ⊆ ws') : begins line ws' = true := by
  obtain ⟨w, hw, hword⟩ := begins_eq_true_iff.1 h
  exact begins_eq_true_iff.2 ⟨w, hws hw, hword⟩

end DebugCommand

/-! ## The lines of an input -/

namespace DebugState

open DebugCommand

/-- The lines of a text, each with its newline, which the last may lack. -/
def inputLines : List Char → List (List Char)
  | [] => []
  | c :: cs =>
    if c = '\n' then [c] :: inputLines cs
    else match inputLines cs with
      | [] => [[c]]
      | line :: rest => (c :: line) :: rest

theorem inputLines_newline (cs : List Char) :
    inputLines ('\n' :: cs) = ['\n'] :: inputLines cs := by
  simp [inputLines]

theorem inputLines_cons {c : Char} (h : c ≠ '\n') (cs : List Char) :
    inputLines (c :: cs) =
      (c :: (inputLines cs).headD []) :: (inputLines cs).tail := by
  rw [inputLines, if_neg h]
  cases inputLines cs <;> rfl

theorem flatten_inputLines (cs : List Char) : (inputLines cs).flatten = cs := by
  induction cs with
  | nil => rfl
  | cons c cs ih =>
    by_cases h : c = '\n'
    · rw [h, inputLines_newline, List.flatten_cons, ih]
      rfl
    · rw [inputLines_cons h, List.flatten_cons, List.cons_append]
      cases hlines : inputLines cs with
      | nil => simp_all
      | cons line rest => simp_all

theorem inputLines_flatten_tail (cs : List Char) :
    inputLines (inputLines cs).tail.flatten = (inputLines cs).tail := by
  induction cs with
  | nil => rfl
  | cons c cs ih =>
    by_cases h : c = '\n'
    · rw [h, inputLines_newline, List.tail_cons, flatten_inputLines]
    · rw [inputLines_cons h, List.tail_cons, ih]

theorem length_inputLines_le (cs : List Char) : (inputLines cs).length ≤ cs.length := by
  induction cs with
  | nil => rfl
  | cons c cs ih =>
    by_cases h : c = '\n'
    · rw [h, inputLines_newline, List.length_cons, List.length_cons]
      omega
    · rw [inputLines_cons h, List.length_cons, List.length_cons, List.length_tail]
      omega

theorem length_le_length_encode (cs : List Char) : cs.length ≤ (Utf8.encode cs).length := by
  induction cs with
  | nil => rfl
  | cons c cs ih =>
    have hbytes := List.length_pos_of_ne_nil (String.utf8EncodeChar_ne_nil (c := c))
    rw [Utf8.encode_cons, List.length_cons, List.length_append]
    omega

theorem newline_not_mem_utf8EncodeChar {c : Char} (h : c ≠ '\n') :
    10 ∉ String.utf8EncodeChar c := by
  have hne : c.toNat ≠ 10 := fun hc => h (Char.toNat_inj.1 hc)
  have hspelled := Utf8.spelled_utf8EncodeChar c
  generalize String.utf8EncodeChar c = bytes at hspelled
  cases hspelled <;> simp [← UInt8.toNat_inj] <;> omega

theorem takeLine_append {bytes : List UInt8} (h : 10 ∉ bytes) (rest : List UInt8) :
    takeLine (bytes ++ rest) = (bytes ++ (takeLine rest).1, (takeLine rest).2) := by
  induction bytes with
  | nil => rfl
  | cons b bytes ih =>
    rw [List.mem_cons, not_or] at h
    rw [List.cons_append, takeLine, if_neg (Ne.symm h.1), ih h.2]
    rfl

theorem takeLine_encode (cs : List Char) :
    takeLine (Utf8.encode cs) =
      (Utf8.encode ((inputLines cs).headD []), Utf8.encode (inputLines cs).tail.flatten) := by
  induction cs with
  | nil => rfl
  | cons c cs ih =>
    by_cases h : c = '\n'
    · subst h
      rw [inputLines_newline, List.tail_cons, flatten_inputLines]
      rfl
    · rw [Utf8.encode_cons, takeLine_append (newline_not_mem_utf8EncodeChar h), ih,
        inputLines_cons h]
      rfl

/-! ## Line by line -/

/-- A line that is carried out: the debugger before and after it, and what is shown. -/
structure Turn where
  line : List Char
  before : DebugState
  after : DebugState
  reply : List String

/-- The turns of lines that do not quit. -/
def turns (d : DebugState) : List (List Char) → List Turn
  | [] => []
  | line :: rest =>
    let (after, reply) := d.step (parse line)
    ⟨line, d, after, reply⟩ :: turns after rest

/-- The debugger after some turns. -/
def reached (d : DebugState) (history : List Turn) : DebugState :=
  history.foldl (fun _ t => t.after) d

/-- What some turns show, each behind its prompt. -/
def transcript (history : List Turn) : String :=
  String.join (history.map fun t => prompt ++ shown t.reply)

/-- Whether a line ends the session. -/
def quits (line : List Char) : Bool := begins line ["continue", "c", "quit", "q"]

/-- The lines before the first that quits. -/
def carried (lines : List (List Char)) : List (List Char) := lines.takeWhile fun l => !quits l

/-- The first line that quits, and those behind it. -/
def remaining (lines : List (List Char)) : List (List Char) := lines.dropWhile fun l => !quits l

/-- How a session goes on over lines. -/
def course (d : DebugState) (lines : List (List Char)) : SessionEnd where
  debugger := reached d (turns d (carried lines))
  output := transcript (turns d (carried lines)) ++ prompt ++
    (if (remaining lines).isEmpty then "\n" else "")
  error? := none
  unread := Utf8.encode (remaining lines).tail.flatten

/-- What a line that does not quit adds in front of the rest of a session. -/
def SessionEnd.afterReply (reply : List String) (ending : SessionEnd) : SessionEnd :=
  { ending with output := prompt ++ shown reply ++ ending.output }

theorem course_cons (d : DebugState) (line : List Char) (rest : List (List Char)) :
    course d (line :: rest) =
      if quits line then ⟨d, prompt, none, Utf8.encode rest.flatten⟩
      else (course (d.step (parse line)).1 rest).afterReply (d.step (parse line)).2 := by
  split_ifs with h
  · simp [course, carried, remaining, h, turns, reached, transcript]
  · simp [course, carried, remaining, h, turns, reached, transcript, SessionEnd.afterReply,
      String.append_assoc]

theorem exists_cons_inputLines {cs : List Char} (h : cs ≠ []) :
    ∃ line rest, inputLines cs = line :: rest ∧ inputLines rest.flatten = rest := by
  have hne : inputLines cs ≠ [] := by
    intro hnil
    rw [← flatten_inputLines cs, hnil] at h
    exact h rfl
  obtain ⟨line, rest, hlines⟩ := List.exists_cons_of_ne_nil hne
  have hrest := inputLines_flatten_tail cs
  rw [hlines] at hrest
  exact ⟨line, rest, hlines, hrest⟩

/-- A session over a text does what its first line says and goes on with the rest. -/
theorem commands_succ {cs line : List Char} {rest : List (List Char)}
    (hlines : inputLines cs = line :: rest) (fuel : Nat) (d : DebugState) :
    commands (fuel + 1) d (Utf8.encode cs) =
      if quits line then ⟨d, prompt, none, Utf8.encode rest.flatten⟩
      else (commands fuel (d.step (parse line)).1 (Utf8.encode rest.flatten)).afterReply
        (d.step (parse line)).2 := by
  have htake := takeLine_encode cs
  rw [hlines, List.headD_cons, List.tail_cons] at htake
  have hne : Utf8.encode cs ≠ [] := by
    intro hnil
    have hlength := length_le_length_encode cs
    have hlines' := length_inputLines_le cs
    rw [hnil] at hlength
    rw [hlines] at hlines'
    simp only [List.length_nil, List.length_cons] at hlength hlines'
    omega
  obtain ⟨b, bytes, hbytes⟩ := List.exists_cons_of_ne_nil hne
  rw [hbytes] at htake ⊢
  have hquit : parse line = .quit ↔ quits line = true := parse_eq_iff (by simp)
  rw [commands.eq_3 _ _ _ (List.cons_ne_nil b bytes), htake]
  simp only [Utf8.decode_encode]
  split_ifs with h
  · rw [hquit.2 h]
  · split
    · rename_i hparse
      exact absurd (hquit.1 hparse) h
    · rfl

/-- **A session over a text is carried out line by line**, if there is fuel for every line. -/
theorem commands_eq {fuel : Nat} {cs : List Char} (hfuel : (inputLines cs).length ≤ fuel)
    (d : DebugState) : commands fuel d (Utf8.encode cs) = course d (inputLines cs) := by
  induction fuel generalizing cs d with
  | zero =>
    have hcs := flatten_inputLines cs
    rw [List.length_eq_zero_iff.1 (Nat.le_zero.1 hfuel)] at hcs
    subst hcs
    rfl
  | succ fuel ih =>
    by_cases hcs : cs = []
    · subst hcs
      rfl
    · obtain ⟨line, rest, hlines, hrest⟩ := exists_cons_inputLines hcs
      have hfuel' : (inputLines rest.flatten).length ≤ fuel := by
        rw [hrest]
        rw [hlines, List.length_cons] at hfuel
        omega
      rw [commands_succ hlines, hlines, course_cons, ih hfuel', hrest]

/-! ## What a command does -/

/-- A line whose argument is the number of a frame; numbers have 64 bits at most. -/
def NamesFrame (e : Envelope) (line : List Char) (n : Nat) : Prop :=
  ∃ a, argument? line = some a ∧ Numeral.IsNumeral a.toList n ∧ n < word64 ∧ n < e.frames.length

/-- The watched values of a frame, none if there is no such frame. -/
def valuesAt (e : Envelope) (n : Nat) : List (String × String) :=
  (e.frames[n]?.map (·.locals)).getD []

/-- All values are shown, a line each. -/
def ShowsAll (values : List (String × String)) (reply : List String) : Prop :=
  (values = [] ∧ reply = ["(no watched values)"]) ∨
    (values ≠ [] ∧ reply = values.map fun v => v.1 ++ " = " ++ v.2)

/-- The first value of a name is shown, or that there is none. -/
def ShowsFirst (values : List (String × String)) (name : String) (reply : List String) : Prop :=
  (∃ before value after, values = before ++ (name, value) :: after ∧
      name ∉ before.map Prod.fst ∧ reply = [value]) ∨
    (name ∉ values.map Prod.fst ∧ reply = ["*** Name '" ++ name ++ "' is not defined"])

/-- The selected frame is one of the failure, if there is any. -/
def Inside (d : DebugState) : Prop := d.envelope.frames ≠ [] → d.selected < d.envelope.frames.length

/-- What a turn of a session over a failure may do: it keeps the selection inside, moves it only as
its command says, and shows the values of the frame that is selected. -/
structure Turn.Sound (e : Envelope) (t : Turn) : Prop where
  envelope : t.before.envelope = e ∧ t.after.envelope = e
  inside : e.frames ≠ [] → t.before.selected < e.frames.length ∧ t.after.selected < e.frames.length
  up : begins t.line ["up", "u"] = true →
    t.before.selected = t.after.selected + 1 ∨ t.before.selected = 0 ∧ t.after.selected = 0
  down : begins t.line ["down", "d"] = true →
    (t.after.selected = t.before.selected + 1 ∧ t.after.selected < e.frames.length) ∨
      (t.after.selected = t.before.selected ∧ e.frames.length ≤ t.before.selected + 1)
  frame : begins t.line ["frame", "f"] = true →
    (∀ n, NamesFrame e t.line n → t.after.selected = n) ∧
      ((∀ n, ¬ NamesFrame e t.line n) → t.after.selected = t.before.selected)
  still : begins t.line ["up", "u", "down", "d", "frame", "f"] = false →
    t.after.selected = t.before.selected
  locals : begins t.line ["locals", "l"] = true →
    ShowsAll (valuesAt e t.before.selected) t.reply
  print : begins t.line ["print", "p"] = true → ∀ name, argument? t.line = some name →
    ShowsFirst (valuesAt e t.before.selected) name t.reply

theorem envelope_step (d : DebugState) (c : DebugCommand) : (d.step c).1.envelope = d.envelope := by
  fun_cases step d c <;> rfl

theorem Inside.step {d : DebugState} (h : Inside d) (c : DebugCommand) : Inside (d.step c).1 := by
  intro hframes
  rw [envelope_step] at hframes ⊢
  have hselected := h hframes
  fun_cases DebugState.step d c <;> simp only [select] <;> omega

/-- No command but three moves the selection. -/
theorem selected_step {d : DebugState} {c : DebugCommand} (hup : c ≠ .up) (hdown : c ≠ .down)
    (hframe : ∀ n?, c ≠ .frame n?) : (d.step c).1.selected = d.selected := by
  cases c with
  | up => contradiction
  | down => contradiction
  | frame n? => exact absurd rfl (hframe n?)
  | print name? => cases name? <;> rfl
  | nothing | stack | locals | help | quit | unknown => rfl

theorem selected_step_up (d : DebugState) :
    d.selected = (d.step .up).1.selected + 1 ∨
      d.selected = 0 ∧ (d.step .up).1.selected = 0 := by
  simp only [step]
  split_ifs with h
  · exact .inr ⟨h, h⟩
  · left
    simp only [select]
    omega

theorem selected_step_down (d : DebugState) :
    ((d.step .down).1.selected = d.selected + 1 ∧
      (d.step .down).1.selected < d.envelope.frames.length) ∨
      ((d.step .down).1.selected = d.selected ∧ d.envelope.frames.length ≤ d.selected + 1) := by
  simp only [step]
  split_ifs with h
  · exact .inr ⟨rfl, h⟩
  · exact .inl ⟨rfl, Nat.not_le.1 h⟩

theorem selected_step_frame (d : DebugState) {n : Nat} (h : n < d.envelope.frames.length) :
    (d.step (.frame (some n))).1.selected = n := by
  simp only [step, if_pos h]
  rfl

/-- A number that is that of no frame, or none at all, moves nothing. -/
theorem selected_step_noFrame (d : DebugState) {n? : Option Nat}
    (h : ∀ n, n? = some n → d.envelope.frames.length ≤ n) :
    (d.step (.frame n?)).1.selected = d.selected := by
  cases n? with
  | none => rfl
  | some n => simp only [step, if_neg (Nat.not_lt.2 (h n rfl))]

theorem showsAll_localLines (d : DebugState) :
    ShowsAll (valuesAt d.envelope d.selected) d.localLines := by
  unfold localLines frame? valuesAt
  rcases d.envelope.frames[d.selected]? with _ | ⟨_, _, _, _ | ⟨value, values⟩⟩
  · exact .inl ⟨rfl, rfl⟩
  · exact .inl ⟨rfl, rfl⟩
  · exact .inr ⟨List.cons_ne_nil _ _, rfl⟩

theorem showsFirst_valueLines (d : DebugState) (name : String) :
    ShowsFirst (valuesAt d.envelope d.selected) name (d.valueLines name) := by
  have hfind : (d.frame?.bind fun f => f.locals.find? fun l => l.1 = name) =
      (valuesAt d.envelope d.selected).find? fun l => l.1 = name := by
    unfold frame? valuesAt
    cases d.envelope.frames[d.selected]? <;> rfl
  unfold valueLines
  rw [hfind]
  cases h : (valuesAt d.envelope d.selected).find? fun l => l.1 = name with
  | none =>
    right
    rw [List.find?_eq_none] at h
    refine ⟨fun hmem => ?_, rfl⟩
    obtain ⟨l, hl, hname⟩ := List.mem_map.1 hmem
    exact absurd hname (by simpa using h l hl)
  | some l =>
    left
    obtain ⟨hname, before, after, hvalues, hbefore⟩ := List.find?_eq_some_iff_append.1 h
    obtain ⟨first, value⟩ := l
    obtain rfl : first = name := by simpa using hname
    refine ⟨before, value, after, hvalues, fun hmem => ?_, rfl⟩
    obtain ⟨l, hl, hfirst⟩ := List.mem_map.1 hmem
    simpa [hfirst] using hbefore l hl

/-- The number of a frame is what its argument is read as. -/
theorem namesFrame_iff {e : Envelope} {line : List Char} {n : Nat} :
    NamesFrame e line n ↔
      (argument? line).bind (fun a => Numeral.readDecimal? word64 a.toList) = some n ∧
        n < e.frames.length := by
  unfold NamesFrame
  rw [Option.bind_eq_some_iff]
  constructor
  · rintro ⟨a, ha, hnumeral, hword, hn⟩
    exact ⟨⟨a, ha, Numeral.readDecimal?_eq_some_iff.2 ⟨hnumeral, hword⟩⟩, hn⟩
  · rintro ⟨⟨a, ha, hread⟩, hn⟩
    obtain ⟨hnumeral, hword⟩ := Numeral.readDecimal?_eq_some_iff.1 hread
    exact ⟨a, ha, hnumeral, hword, hn⟩

/-- **A turn that starts inside is sound.** -/
theorem sound_turn {d : DebugState} (h : Inside d) (line : List Char) :
    Turn.Sound d.envelope ⟨line, d, (d.step (parse line)).1, (d.step (parse line)).2⟩ where
  envelope := ⟨rfl, envelope_step d _⟩
  inside hframes := by
    have hafter := h.step (parse line)
    rw [Inside, envelope_step] at hafter
    exact ⟨h hframes, hafter hframes⟩
  up hup := by
    have hparse : parse line = .up := (parse_eq_iff (by simp)).2 hup
    simp only [hparse]
    exact selected_step_up d
  down hdown := by
    have hparse : parse line = .down := (parse_eq_iff (by simp)).2 hdown
    simp only [hparse]
    exact selected_step_down d
  frame hframe := by
    have hparse := parse_eq_frame_iff.2 ⟨hframe, rfl⟩
    simp only [hparse]
    constructor
    · intro n hn
      obtain ⟨hread, hlt⟩ := namesFrame_iff.1 hn
      rw [hread]
      exact selected_step_frame d hlt
    · intro hnone
      refine selected_step_noFrame d fun n hread => Nat.not_lt.1 fun hlt => ?_
      exact hnone n (namesFrame_iff.2 ⟨hread, hlt⟩)
  still hstill := by
    have hnot : ∀ ws, ws ⊆ ["up", "u", "down", "d", "frame", "f"] → begins line ws ≠ true := by
      intro ws hws hbegins
      rw [begins_mono hbegins hws] at hstill
      contradiction
    refine selected_step (fun hparse => ?_) (fun hparse => ?_) fun n? hparse => ?_
    · exact hnot _ (by simp [words]) ((parse_eq_iff (by simp)).1 hparse)
    · exact hnot _ (by simp [words]) ((parse_eq_iff (by simp)).1 hparse)
    · exact hnot _ (by simp) (parse_eq_frame_iff.1 hparse).1
  locals hlocals := by
    have hparse : parse line = .locals := (parse_eq_iff (by simp)).2 hlocals
    simp only [hparse]
    exact showsAll_localLines d
  print hprint name hname := by
    have hparse := parse_eq_print_iff.2 ⟨hprint, hname⟩
    simp only [hparse]
    exact showsFirst_valueLines d name

/-! ## Whole sessions -/

/-- Turns of which each begins where the one before it ended. -/
def Linked (d : DebugState) : List Turn → Prop
  | [] => True
  | t :: rest => t.before = d ∧ Linked t.after rest

theorem linked_turns (d : DebugState) (lines : List (List Char)) : Linked d (turns d lines) := by
  induction lines generalizing d with
  | nil => trivial
  | cons line rest ih => exact ⟨rfl, ih _⟩

theorem map_line_turns (d : DebugState) (lines : List (List Char)) :
    (turns d lines).map (·.line) = lines := by
  induction lines generalizing d with
  | nil => rfl
  | cons line rest ih => exact congrArg (line :: ·) (ih _)

/-- The turns of a session that starts inside are sound. -/
theorem sound_of_mem_turns {d : DebugState} (h : Inside d) {lines : List (List Char)} {t : Turn}
    (ht : t ∈ turns d lines) : t.Sound d.envelope := by
  induction lines generalizing d with
  | nil => cases ht
  | cons line rest ih =>
    rcases List.mem_cons.1 ht with rfl | ht
    · exact sound_turn h line
    · have hnext := ih (h.step (parse line)) ht
      rwa [envelope_step] at hnext

theorem inside_start (e : Envelope) : Inside (start e) := by
  intro hframes
  have hpos : 0 < e.frames.length := List.length_pos_of_ne_nil hframes
  change e.frames.length - 1 < e.frames.length
  omega

/-- A session over a text: what was carried out, what was shown, and what is left. -/
structure Walks (e : Envelope) (input : List Char) (history : List Turn) (s : SessionEnd) :
    Prop where
  /-- It starts at the last frame. -/
  start : e.frames ≠ [] → (DebugState.start e).selected + 1 = e.frames.length
  /-- The lines before the first that quits are carried out in order, each where the one before it
  ended. -/
  lines : history.map (·.line) = carried (inputLines input)
  linked : Linked (DebugState.start e) history
  sound : ∀ t ∈ history, t.Sound e
  debugger : s.debugger = reached (DebugState.start e) history
  success : s.error? = none
  /-- The line that quits is the last one read; all of the text is read if there is none. -/
  unread : s.unread = Utf8.encode (remaining (inputLines input)).tail.flatten
  output : s.output = shown (e.text :: (DebugState.start e).frameLines) ++
    (transcript history ++ prompt ++ (if (remaining (inputLines input)).isEmpty then "\n" else ""))

/-- **Every session over a text walks through its lines**, up to the first that quits, and ends with
success. -/
theorem session_walks (e : Envelope) (input : List Char) :
    Walks e input (turns (start e) (carried (inputLines input)))
      (session e (Utf8.encode input)) := by
  have hfuel : (inputLines input).length ≤ (Utf8.encode input).length + 1 :=
    (length_inputLines_le input).trans ((length_le_length_encode input).trans (Nat.le_succ _))
  have hcommands := commands_eq hfuel (start e)
  have hsession : session e (Utf8.encode input) =
      { course (start e) (inputLines input) with
        output := shown (e.text :: (start e).frameLines) ++
          (course (start e) (inputLines input)).output } := by
    rw [session, hcommands]
  rw [hsession]
  exact {
    start hframes := by
      have hpos := List.length_pos_of_ne_nil hframes
      change e.frames.length - 1 + 1 = e.frames.length
      omega
    lines := map_line_turns _ _
    linked := linked_turns _ _
    sound t ht := sound_of_mem_turns (inside_start e) ht
    debugger := rfl
    success := rfl
    unread := rfl
    output := rfl }

/-- A session of two frames: one step up, none beyond, and nothing read behind the line that
quits. -/
example :
    let frame : StackFrame := ⟨"f.rs", 1, "f", [("x", "1"), ("x", "2")]⟩
    let ending := session ⟨1, "panic", "m", .testBody, [frame, frame]⟩
      (Utf8.encode "up\n u \nframe 2\np x\nq now\ndown\n".toList)
    ending.debugger.selected = 0 ∧ ending.error? = none ∧
      ending.unread = Utf8.encode "down\n".toList := by
  decide +kernel

end DebugState

end FuzzCampaign
