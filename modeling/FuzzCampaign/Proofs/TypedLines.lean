import FuzzCampaign.Proofs.Terminal

/-!
# Typed lines are taken fairly

Whatever is typed at a terminal, and whenever: questions take the lines in the order of typing, each
once, and no question takes a line that had come before it began.

* `Goes`, `Reason`: what a question does while it is open, and what it must have seen to end;
* `Justified`: a question that ends for a reason;
* `Proper`, **`Fair`**: what holds at every moment of a diary;
* `Terminal.Sound`, `Terminal.Unread`: the lines on their way from the keyboard to a question;
* **`TerminalWorld.session_fair`**: questions one after another are fair.
-/

namespace FuzzCampaign

/-! ## Reasons -/

theorem PromptReply.ofLine?_eq_some_iff {line : String} {attach : Bool} :
    ofLine? line = some attach ↔
      String.ofList (Text.trim line.toList) = if attach then "y" else "n" := by
  unfold ofLine?
  split <;> cases attach <;> simp_all

/-- Whether a question that does it stays open. -/
def TerminalEvent.isStep : TerminalEvent → Bool
  | .discarded _ | .readClock _ | .printed _ | .looked _ | .requested | .waited => true
  | _ => false

/-- What a question does while it stays open: after a line that is no answer, it asks again. -/
inductive Goes : List TerminalEvent → Prop
  | done : Goes []
  | step {e : TerminalEvent} {l : List TerminalEvent} : e.isStep = true → Goes l → Goes (e :: l)
  | again {line : String} {l : List TerminalEvent} : PromptReply.ofLine? line = none → Goes l →
    Goes (.took (some line) :: .printed attachQuestion :: l)

/-- What a question has seen last, if it ends with this reply; `due?` is when its time is up. -/
inductive Reason (due? : Option Nat) : List TerminalEvent → PromptReply → Prop
  | answered {line : String} {attach : Bool} :
    String.ofList (Text.trim line.toList) = (if attach then "y" else "n") →
    Reason due? [.took (some line)] (.answer attach)
  | ended : Reason due? [.took none] (.answer false)
  | unreadable : Reason due? [.unreadable] (.answer false)
  | abandoned : Reason due? [.looked false, .printed "\n"] .abandoned
  | timedOut {due now : Nat} : due? = some due → due ≤ now →
    Reason due? [.looked true, .readClock now, .printed "\n"] .timedOut

/-- When the time of a question that has done `l` is up; it looks at the clock when it begins. -/
def due? (timeout? : Option Duration) (l : List TerminalEvent) : Option Nat :=
  timeout?.bind fun timeout =>
    (l.filterMap TerminalEvent.clock?).head?.map fun start => start + timeout.nanoseconds

/-- The last question of a diary may end with this reply. -/
def Justified (diary : List TerminalEvent) (reply : PromptReply) : Prop :=
  ∃ earlier timeout? l last, ownIn diary = earlier ++ .began timeout? :: (l ++ last) ∧
    Goes l ∧ Reason (due? timeout? l) last reply

/-! ## Fairness -/

/-- What holds when the last event of a diary has just happened. -/
structure Proper (diary : List TerminalEvent) : Prop where
  /-- At most one request for a line is open. -/
  one_request : requestsIn diary ≤ (consumedIn diary).length + 1
  /-- The lines are handed over in the order of typing, none is left out. -/
  delivered_in_order : deliveredIn diary <+: typedIn diary
  /-- The lines are consumed in that order. -/
  consumed_in_order : consumedIn diary <+: deliveredIn diary
  /-- A line that had been handed over when a question began is taken neither by it nor by a later
  one: whoever takes a line has at least as many before it. -/
  taken_is_new : ∀ front line?, diary = front ++ [.took line?] →
    ∀ before timeout? mid, front = before ++ .began timeout? :: mid →
      (deliveredIn before).length ≤ (consumedIn front).length
  /-- A question ends for a reason. -/
  justified : ∀ front reply, diary = front ++ [.replied reply] → Justified front reply

/-- A diary that was proper at every moment. -/
def Fair (diary : List TerminalEvent) : Prop := ∀ moment, moment <+: diary → Proper moment

theorem fair_nil : Fair [] := by
  intro moment h
  rw [List.prefix_nil.1 h]
  exact {
    one_request := Nat.zero_le _
    delivered_in_order := List.prefix_rfl
    consumed_in_order := List.prefix_rfl
    taken_is_new := by simp
    justified := by simp }

theorem Fair.snoc {d : List TerminalEvent} {e : TerminalEvent} (h : Fair d)
    (he : Proper (d ++ [e])) : Fair (d ++ [e]) := by
  intro moment hm
  rcases List.prefix_concat_iff.1 hm with rfl | hm
  · exact he
  · exact h moment hm

/-- As many lines have been consumed as had been handed over when a question last began. -/
def CaughtUp (diary : List TerminalEvent) : Prop :=
  ∀ before timeout? mid, diary = before ++ .began timeout? :: mid →
    (deliveredIn before).length ≤ (consumedIn diary).length

theorem caughtUp_of_eq {d : List TerminalEvent} (h : deliveredIn d = consumedIn d) :
    CaughtUp d := by
  rintro before timeout? mid rfl
  rw [← h, deliveredIn, deliveredIn, List.filterMap_append, List.length_append]
  exact Nat.le_add_right _ _

theorem CaughtUp.snoc {d : List TerminalEvent} {e : TerminalEvent} (h : CaughtUp d)
    (he : ∀ timeout?, e ≠ .began timeout?) : CaughtUp (d ++ [e]) := by
  intro before timeout? mid hd
  rcases List.eq_nil_or_concat mid with rfl | ⟨mid, e', rfl⟩
  · obtain ⟨-, hlast⟩ := List.append_inj' hd rfl
    exact absurd (List.singleton_inj.1 hlast) (he timeout?)
  · rw [List.concat_eq_append, ← List.cons_append, ← List.append_assoc] at hd
    obtain ⟨rfl, -⟩ := List.append_inj' hd rfl
    rw [consumedIn_snoc, List.length_append]
    exact Nat.le_trans (h before timeout? mid rfl) (Nat.le_add_right _ _)

/-! ## Lines on their way -/

/-- Whether it is neither the beginning nor the end of a question. -/
def TerminalEvent.isWithin : TerminalEvent → Bool
  | .began _ | .replied _ => false
  | _ => true

/-- Whether it is a question that does it, and leaves the lines alone. -/
def TerminalEvent.isNeutral : TerminalEvent → Bool
  | .typed _ | .delivered _ | .discarded _ | .requested | .took _ => false
  | _ => true

/-- The line that a helper has read and not handed over. -/
def LineHelper.held : LineHelper → List (Option String)
  | .holding line? => [line?]
  | _ => []

/-- How many requests a helper is serving. -/
def LineHelper.serves : LineHelper → Nat
  | .reading | .holding _ => 1
  | _ => 0

namespace TerminalEvent

variable {e : TerminalEvent}

theorem parts_of_isNeutral (h : e.isNeutral = true) :
    e.typed? = none ∧ e.delivered? = none ∧ e.consumed? = none ∧ e.isRequest = false := by
  cases e <;> first | exact ⟨rfl, rfl, rfl, rfl⟩ | cases h

theorem parts_of_consumed {line? : Option String} (h : e.consumed? = some line?) :
    e.typed? = none ∧ e.delivered? = none ∧ e.isRequest = false := by
  cases e <;> first | exact ⟨rfl, rfl, rfl⟩ | cases h

theorem isOwn_of_isNeutral (h : e.isNeutral = true) : e.isOwn = true := by
  cases e <;> first | rfl | cases h

end TerminalEvent

namespace Terminal

/-- The lines on their way to the questions; `pending` says whether a request is open. -/
structure Sound (pending : Bool) (t : Terminal) : Prop where
  typed_eq : ∃ lost,
    typedIn t.diary = deliveredIn t.diary ++ (t.reader.helper.held ++ (lost ++ t.typed)) ∧
      (lost ≠ [] → t.reader.helper = .gone)
  delivered_eq : deliveredIn t.diary = consumedIn t.diary ++ t.reader.lines
  requested_eq : requestsIn t.diary = (consumedIn t.diary).length + pending.toNat
  served_le : (deliveredIn t.diary).length + (t.reader.requests + t.reader.helper.serves) ≤
    requestsIn t.diary

/-- A terminal where the lines are on their way, and everything has been fair. -/
structure Orderly (pending : Bool) (t : Terminal) : Prop extends t.Sound pending where
  fair : Fair t.diary

variable {t : Terminal} {pending : Bool} {e : TerminalEvent}

/-- Where no request is open, no line is waiting. -/
theorem Sound.lines_eq_nil (h : t.Sound false) : t.reader.lines = [] := by
  have hserved := h.served_le
  rw [h.requested_eq, h.delivered_eq, List.length_append, Bool.toNat_false] at hserved
  exact List.eq_nil_of_length_eq_zero (by omega)

theorem Sound.fair_note (h : (t.note e).Sound pending) (hfair : Fair t.diary)
    (htook : ∀ line?, e = .took line? → CaughtUp t.diary)
    (hreplied : ∀ reply, e = .replied reply → Justified t.diary reply) :
    (t.note e).Orderly pending := by
  refine ⟨h, hfair.snoc ?_⟩
  obtain ⟨lost, htyped, -⟩ := h.typed_eq
  exact {
    one_request := by
      have hpending := pending.toNat_le
      have hrequested := h.requested_eq
      change requestsIn (t.diary ++ [e]) = (consumedIn (t.diary ++ [e])).length + _ at hrequested
      omega
    delivered_in_order := ⟨_, htyped.symm⟩
    consumed_in_order := ⟨_, h.delivered_eq.symm⟩
    taken_is_new := by
      rintro front line? heq before timeout? mid rfl
      obtain ⟨hfront, hlast⟩ := List.append_inj' heq rfl
      rw [← hfront]
      exact htook line? (List.singleton_inj.1 hlast) before timeout? mid hfront
    justified := by
      intro front reply heq
      obtain ⟨rfl, hlast⟩ := List.append_inj' heq rfl
      exact hreplied reply (List.singleton_inj.1 hlast) }

/-! ### What happens by itself -/

theorem diary_step (t : Terminal) (m : TerminalMove) :
    (t.step m).diary = t.diary ∨ ∃ e, e.isOwn = false ∧ (t.step m).diary = t.diary ++ [e] := by
  cases m with
  | type line? => exact .inr ⟨_, rfl, rfl⟩
  | work =>
    rw [step]
    rcases t.work_cases with h | ⟨_, -, -, h⟩ | ⟨_, _, -, -, h⟩ | ⟨line?, -, h⟩
    · exact .inl (by rw [h])
    · exact .inl (by rw [h])
    · exact .inl (by rw [h])
    · exact .inr ⟨.delivered line?, rfl, by rw [h]; rfl⟩
  | vanish => exact .inl rfl

theorem ownIn_step (t : Terminal) (m : TerminalMove) : ownIn (t.step m).diary = ownIn t.diary := by
  rcases t.diary_step m with h | ⟨e, he, h⟩
  · rw [h]
  · rw [h, ownIn_snoc_of_not_own _ he]

theorem caughtUp_step (h : CaughtUp t.diary) (m : TerminalMove) : CaughtUp (t.step m).diary := by
  rcases t.diary_step m with hm | ⟨e, he, hm⟩
  · rwa [hm]
  · rw [hm]
    refine h.snoc fun timeout? heq => ?_
    rw [heq] at he
    cases he

theorem Orderly.type (h : t.Orderly pending) (line? : Option String) :
    (t.step (.type line?)).Orderly pending := by
  obtain ⟨lost, htyped, hlost⟩ := h.typed_eq
  refine Sound.fair_note (t := { t with typed := t.typed ++ [line?] }) ?_ h.fair nofun nofun
  exact {
    typed_eq := by
      refine ⟨lost, ?_, hlost⟩
      simp [note, TerminalEvent.typed?, TerminalEvent.delivered?, htyped]
    delivered_eq := by
      simp [note, TerminalEvent.delivered?, TerminalEvent.consumed?, h.delivered_eq]
    requested_eq := by
      simp [note, TerminalEvent.consumed?, TerminalEvent.isRequest, h.requested_eq]
    served_le := by
      simpa [note, TerminalEvent.delivered?, TerminalEvent.isRequest] using h.served_le }

theorem Orderly.vanish (h : t.Orderly pending) : (t.step .vanish).Orderly pending := by
  obtain ⟨lost, htyped, hlost⟩ := h.typed_eq
  have hserved := h.served_le
  exact {
    typed_eq := ⟨t.reader.helper.held ++ lost,
      by simp [step, LineReader.vanish, LineHelper.held, htyped], fun _ => rfl⟩
    delivered_eq := h.delivered_eq
    requested_eq := h.requested_eq
    served_le := by
      simp only [step, LineReader.vanish, LineHelper.serves]
      omega
    fair := h.fair }

theorem Orderly.work (h : t.Orderly pending) : t.work.Orderly pending := by
  obtain ⟨lost, htyped, hlost⟩ := h.typed_eq
  have hserved := h.served_le
  have hlost' (hhelper : t.reader.helper ≠ .gone) : lost = [] :=
    Decidable.byContradiction fun hne => hhelper (hlost hne)
  rcases t.work_cases with ht | ⟨n, hhelper, hrequests, ht⟩ | ⟨line?, rest, hhelper, hrest, ht⟩ |
    ⟨line?, hhelper, ht⟩
  · rwa [ht]
  · rw [ht]
    rw [hhelper] at htyped hserved
    exact {
      typed_eq := ⟨lost, htyped, fun hne => absurd (hlost' (by simp [hhelper])) hne⟩
      delivered_eq := h.delivered_eq
      requested_eq := h.requested_eq
      served_le := by
        simp only [LineHelper.serves] at hserved ⊢
        omega
      fair := h.fair }
  · rw [ht]
    rw [hhelper, hrest, hlost' (by simp [hhelper])] at htyped
    rw [hhelper] at hserved
    exact {
      typed_eq := ⟨[], htyped, fun hne => absurd rfl hne⟩
      delivered_eq := h.delivered_eq
      requested_eq := h.requested_eq
      served_le := hserved
      fair := h.fair }
  · rw [ht]
    rw [hhelper, hlost' (by simp [hhelper])] at htyped
    rw [hhelper] at hserved
    refine Sound.fair_note ?_ h.fair nofun nofun
    exact {
      typed_eq := by
        refine ⟨[], ?_, fun hne => absurd rfl hne⟩
        simpa [note, LineHelper.held, TerminalEvent.typed?, TerminalEvent.delivered?] using htyped
      delivered_eq := by
        simp [note, TerminalEvent.delivered?, TerminalEvent.consumed?, h.delivered_eq]
      requested_eq := by
        simp [note, TerminalEvent.consumed?, TerminalEvent.isRequest, h.requested_eq]
      served_le := by
        simp only [note, deliveredIn_snoc, requestsIn_snoc, LineHelper.serves] at hserved ⊢
        simp only [TerminalEvent.delivered?, TerminalEvent.isRequest, Option.toList_some,
          List.length_append, List.length_singleton, Bool.toNat_false]
        omega }

/-- **Nothing that happens by itself disturbs the order of lines.** -/
theorem Orderly.step (h : t.Orderly pending) (m : TerminalMove) : (t.step m).Orderly pending := by
  cases m with
  | type line? => exact h.type line?
  | work => exact h.work
  | vanish => exact h.vanish

/-! ### What questions do -/

theorem Sound.note (h : t.Sound pending) (he : e.isNeutral = true) :
    (t.note e).Sound pending := by
  obtain ⟨lost, htyped, hlost⟩ := h.typed_eq
  obtain ⟨htyped?, hdelivered?, hconsumed?, hrequest⟩ := TerminalEvent.parts_of_isNeutral he
  exact {
    typed_eq := ⟨lost, by simpa [Terminal.note, htyped?, hdelivered?] using htyped, hlost⟩
    delivered_eq := by simpa [Terminal.note, hdelivered?, hconsumed?] using h.delivered_eq
    requested_eq := by simpa [Terminal.note, hconsumed?, hrequest] using h.requested_eq
    served_le := by simpa [Terminal.note, hdelivered?, hrequest] using h.served_le }

theorem Orderly.note (h : t.Orderly pending) (he : e.isNeutral = true)
    (hreplied : ∀ reply, e = .replied reply → Justified t.diary reply) :
    (t.note e).Orderly pending := by
  refine (h.toSound.note he).fair_note h.fair (fun line? heq => ?_) hreplied
  rw [heq] at he
  cases he

theorem Orderly.request (h : t.Orderly false) :
    (t.request.1 = true ∧ t.request.2.diary = t.diary ++ [.requested] ∧
      t.request.2.Orderly true) ∨
    (t.request.1 = false ∧ t.request.2 = t.note .unreadable) := by
  unfold Terminal.request LineReader.request
  split
  next reader hrequest =>
    left
    split at hrequest
    · cases hrequest
    · next hhelper =>
      cases hrequest
      obtain ⟨lost, htyped, hlost⟩ := h.typed_eq
      have hserved := h.served_le
      refine ⟨rfl, rfl, Sound.fair_note ?_ h.fair nofun nofun⟩
      exact {
        typed_eq := by
          refine ⟨lost, ?_, hlost⟩
          simpa [Terminal.note, TerminalEvent.typed?, TerminalEvent.delivered?] using htyped
        delivered_eq := by
          simpa [Terminal.note, TerminalEvent.delivered?, TerminalEvent.consumed?]
            using h.delivered_eq
        requested_eq := by
          simpa [Terminal.note, TerminalEvent.consumed?, TerminalEvent.isRequest]
            using h.requested_eq
        served_le := by
          simp only [Terminal.note, deliveredIn_snoc, requestsIn_snoc, TerminalEvent.delivered?,
            TerminalEvent.isRequest, Option.toList_none, List.append_nil, Bool.toNat_true]
          omega }
  next => exact .inr ⟨rfl, rfl⟩

theorem receive_cases (r : LineReader) :
    (∃ line? rest, r.lines = line? :: rest ∧ r.receive = (.got line?, { r with lines := rest })) ∨
    (r.lines = [] ∧ (r.receive = (.empty, r) ∨ r.receive = (.disconnected, r))) := by
  obtain ⟨requests, helper, _ | ⟨line?, rest⟩⟩ := r
  · refine .inr ⟨rfl, ?_⟩
    by_cases hhelper : helper = .gone
    · exact .inr (by simp [LineReader.receive, Poll.ofQueue, hhelper])
    · exact .inl (by simp [LineReader.receive, Poll.ofQueue, hhelper])
  · exact .inl ⟨line?, rest, rfl, rfl⟩

theorem Sound.consume (h : t.Sound true) {line? : Option String} {rest : List (Option String)}
    (hlines : t.reader.lines = line? :: rest) (he : e.consumed? = some line?) :
    ({ t with reader := { t.reader with lines := rest } }.note e).Sound false := by
  obtain ⟨lost, htyped, hlost⟩ := h.typed_eq
  obtain ⟨htyped?, hdelivered?, hrequest⟩ := TerminalEvent.parts_of_consumed he
  exact {
    typed_eq := ⟨lost, by simpa [Terminal.note, htyped?, hdelivered?] using htyped, hlost⟩
    delivered_eq := by simp [Terminal.note, hdelivered?, he, h.delivered_eq, hlines]
    requested_eq := by simpa [Terminal.note, hrequest, he] using h.requested_eq
    served_le := by simpa [Terminal.note, hdelivered?, hrequest] using h.served_le }

/-! ### A question -/

/-- A terminal during a question, where questions have done `own`. -/
structure During (pending : Bool) (own : List TerminalEvent) (t : Terminal) : Prop
    extends t.Orderly pending where
  caughtUp : CaughtUp t.diary
  own_eq : ownIn t.diary = own

variable {own : List TerminalEvent}

theorem During.step (h : t.During pending own) (m : TerminalMove) :
    (t.step m).During pending own :=
  ⟨h.toOrderly.step m, caughtUp_step h.caughtUp m, (t.ownIn_step m).trans h.own_eq⟩

theorem During.steps (h : t.During pending own) (moves : List TerminalMove) :
    (moves.foldl Terminal.step t).During pending own :=
  List.foldlRecOn moves Terminal.step h fun _ h m _ => h.step m

theorem Orderly.during (h : t.Orderly pending) (hlines : t.reader.lines = [])
    (hown : ownIn t.diary = own) : t.During pending own :=
  ⟨h, caughtUp_of_eq (by rw [h.delivered_eq, hlines, List.append_nil]), hown⟩

theorem During.note (h : t.During pending own) (he : e.isNeutral = true)
    (hwithin : e.isWithin = true) : (t.note e).During pending (own ++ [e]) where
  toOrderly := h.toOrderly.note he fun reply heq => by
    rw [heq] at hwithin
    cases hwithin
  caughtUp := h.caughtUp.snoc fun timeout? heq => by
    rw [heq] at hwithin
    cases hwithin
  own_eq := by
    rw [Terminal.note, ownIn_snoc_of_own _ (TerminalEvent.isOwn_of_isNeutral he), h.own_eq]

theorem During.request (h : t.During false own) :
    (t.request.1 = true ∧ t.request.2.During true (own ++ [.requested])) ∨
    (t.request.1 = false ∧ t.request.2.During false (own ++ [.unreadable])) := by
  rcases h.toOrderly.request with ⟨hr, hdiary, horderly⟩ | ⟨hr, ht⟩
  · refine .inl ⟨hr, horderly, ?_, ?_⟩
    · rw [hdiary]
      exact h.caughtUp.snoc nofun
    · rw [hdiary, ownIn_snoc_of_own _ rfl, h.own_eq]
  · refine .inr ⟨hr, ?_⟩
    rw [ht]
    exact h.note rfl rfl

/-- The line that a question takes had not been handed over when it began. -/
theorem During.await (h : t.During true own) :
    t.await.2.During (!t.await.1.isGot) (own ++ [heard t.await.1]) := by
  unfold Terminal.await
  rcases receive_cases t.reader with ⟨line?, rest, hlines, hr⟩ | ⟨-, hr | hr⟩
  · rw [hr]
    refine ⟨(h.toSound.consume hlines rfl).fair_note h.fair (fun _ _ => h.caughtUp) nofun,
      h.caughtUp.snoc nofun, ?_⟩
    exact (ownIn_snoc_of_own _ rfl).trans (by rw [h.own_eq, heard])
  · rw [hr]
    exact h.note rfl rfl
  · rw [hr]
    exact h.note rfl rfl

/-- After a look for a line of an earlier question, no line is waiting. -/
theorem Orderly.discard (h : t.Orderly true) (hown : ownIn t.diary = own) :
    ∃ l, Goes l ∧ l.filterMap TerminalEvent.clock? = [] ∧
      t.discard.2.During (!t.discard.1) (own ++ l) := by
  unfold Terminal.discard
  rcases receive_cases t.reader with ⟨line?, rest, hlines, hr⟩ | ⟨hlines, hr | hr⟩
  · rw [hr]
    have hsound := h.toSound.consume (e := .discarded line?) hlines rfl
    refine ⟨[.discarded line?], .step rfl .done, rfl, ?_⟩
    refine (hsound.fair_note h.fair nofun nofun).during hsound.lines_eq_nil ?_
    exact (ownIn_snoc_of_own _ rfl).trans (by rw [hown])
  · rw [hr]
    exact ⟨[], .done, rfl, h.during hlines (by rw [hown, List.append_nil])⟩
  · rw [hr]
    exact ⟨[], .done, rfl, h.during hlines (by rw [hown, List.append_nil])⟩

/-! ### Between questions -/

theorem Orderly.steps (h : t.Orderly pending) (moves : List TerminalMove) :
    (moves.foldl Terminal.step t).Orderly pending :=
  List.foldlRecOn moves Terminal.step h fun _ h m _ => h.step m

theorem ownIn_steps (t : Terminal) (moves : List TerminalMove) :
    ownIn (moves.foldl Terminal.step t).diary = ownIn t.diary :=
  List.foldlRecOn (motive := fun t' => ownIn t'.diary = ownIn t.diary) moves Terminal.step rfl
    fun t' h m _ => (t'.ownIn_step m).trans h

/-- A terminal of which nothing has been read. -/
structure Unread (t : Terminal) : Prop extends t.Orderly false where
  absent : t.reader = .absent
  unread : typedIn t.diary = deliveredIn t.diary ++ t.typed

theorem unread_fresh : fresh.Unread where
  typed_eq := ⟨[], rfl, fun hne => absurd rfl hne⟩
  delivered_eq := rfl
  requested_eq := rfl
  served_le := Nat.le_refl _
  fair := fair_nil
  absent := rfl
  unread := rfl

theorem Unread.step (h : t.Unread) (m : TerminalMove) : (t.step m).Unread := by
  have horderly := h.toOrderly.step m
  cases m with
  | type line? =>
    refine ⟨horderly, h.absent, ?_⟩
    simp [Terminal.step, Terminal.note, TerminalEvent.typed?, TerminalEvent.delivered?, h.unread]
  | work =>
    -- there is no helper yet
    rcases t.work_cases with hwork | ⟨_, hhelper, -⟩ | ⟨_, _, hhelper, -⟩ | ⟨_, hhelper, -⟩
    · rwa [Terminal.step, hwork]
    all_goals
      rw [h.absent] at hhelper
      cases hhelper
  | vanish =>
    refine ⟨horderly, ?_, h.unread⟩
    simp [Terminal.step, LineReader.vanish, h.absent, LineReader.absent]

theorem Unread.steps (h : t.Unread) (moves : List TerminalMove) :
    (moves.foldl Terminal.step t).Unread :=
  List.foldlRecOn moves Terminal.step h fun _ h m _ => h.step m

theorem Unread.note (h : t.Unread) (he : e.isNeutral = true)
    (hreplied : ∀ reply, e = .replied reply → Justified t.diary reply) : (t.note e).Unread := by
  refine ⟨h.toOrderly.note he hreplied, h.absent, ?_⟩
  obtain ⟨htyped?, hdelivered?, -⟩ := TerminalEvent.parts_of_isNeutral he
  simpa [Terminal.note, htyped?, hdelivered?] using h.unread

/-- A reader that is started finds all that was typed. -/
theorem Unread.start (h : t.Unread) : (t.start true).Orderly false where
  typed_eq := ⟨[], h.unread, fun hne => absurd rfl hne⟩
  delivered_eq := h.delivered_eq.trans (by rw [h.absent]; rfl)
  requested_eq := h.requested_eq
  served_le := by
    have hserved := h.served_le
    rwa [h.absent] at hserved
  fair := h.fair

/-- A terminal between questions; `reader?` is what is left of those before. -/
def Awaits (reader? : Option Bool) (t : Terminal) : Prop :=
  match reader? with
  | none => t.Unread
  | some pending => t.Orderly pending

theorem Awaits.fair {reader? : Option Bool} (h : t.Awaits reader?) : Fair t.diary := by
  cases reader? with
  | none => exact (Unread.toOrderly h).fair
  | some pending => exact Orderly.fair h

theorem Awaits.note {reader? : Option Bool} (h : t.Awaits reader?) (he : e.isNeutral = true)
    (hreplied : ∀ reply, e = .replied reply → Justified t.diary reply) :
    (t.note e).Awaits reader? := by
  cases reader? with
  | none => exact Unread.note h he hreplied
  | some pending => exact Orderly.note h he hreplied

end Terminal

/-! ## Questions -/

theorem Goes.append {l l' : List TerminalEvent} (h : Goes l) (h' : Goes l') : Goes (l ++ l') := by
  induction h with
  | done => exact h'
  | step he _ ih => exact .step he ih
  | again hline _ ih => exact .again hline ih

namespace TerminalWorld

open TerminalPrompt FuzzCampaign.Action

variable {ρ : Type} (world : TerminalWorld ρ) {s : Terminal × ρ} {pending : Bool}
  {own : List TerminalEvent}

theorem during_turn (h : s.1.During pending own) : (world.turn s).1.During pending own :=
  h.steps _

theorem during_isOver (h : s.1.During pending own) (due? : Option Nat) :
    (((isOver world.host due?).run s).1 = true ∧ ∃ due now, due? = some due ∧ due ≤ now ∧
      ((isOver world.host due?).run s).2.1.During pending (own ++ [.readClock now])) ∨
    (((isOver world.host due?).run s).1 = false ∧ ∃ l, Goes l ∧
      ((isOver world.host due?).run s).2.1.During pending (own ++ l)) := by
  rcases due? with _ | due
  · exact .inr ⟨rfl, [], .done, by rwa [List.append_nil]⟩
  · have hturn := during_turn world h
    by_cases hdue : due ≤ (world.now (world.turn s).2).1
    · exact .inl ⟨decide_eq_true hdue, due, _, rfl, hdue, hturn.note rfl rfl⟩
    · exact .inr ⟨decide_eq_false hdue, _, .step rfl .done, hturn.note (e := .readClock _) rfl rfl⟩

theorem run_requestLine (s : Terminal × ρ) : world.host.requestLine.run s =
    ((world.turn s).1.request.1, (world.turn s).1.request.2, (world.turn s).2) :=
  rfl

/-- What waiting for a line, after a request if none is open, comes to. -/
theorem during_takeTyped (h : s.1.During pending own) :
    ∃ l, Goes l ∧ ((takeTyped world.host pending).run s).2.1.During
      ((takeTyped world.host pending).run s).1.2
      (own ++ (l ++ [Terminal.heard ((takeTyped world.host pending).run s).1.1])) := by
  have hturn := during_turn world h
  cases pending with
  | true => exact ⟨[], .done, hturn.await⟩
  | false =>
    simp only [takeTyped, Bool.false_eq_true, if_false, StateT.run_bind, run_requestLine]
    rcases hturn.request with ⟨hasked, h'⟩ | ⟨hasked, h'⟩
    · rw [hasked]
      have hawait := (during_turn world (s := (_, (world.turn s).2)) h').await
      rw [List.append_assoc] at hawait
      exact ⟨[.requested], .step rfl .done, hawait⟩
    · rw [hasked]
      exact ⟨[], .done, h'⟩

theorem during_look (h : s.1.During pending own) (alive : StateM ρ Bool) :
    ((world.look alive).run s).2.1.During pending
      (own ++ [.looked ((world.look alive).run s).1]) :=
  (during_turn world h).note rfl rfl

theorem during_print (h : s.1.During pending own) (text : String) :
    ((world.host.print text).run s).2.1.During pending (own ++ [.printed text]) :=
  (during_turn world h).note rfl rfl

/-- **A question that is open ends for a reason**, if it ends. -/
theorem yields_decideFrom (alive : StateM ρ Bool) (due? : Option Nat) (rounds : Nat)
    (h : s.1.During pending own) :
    Yields (decideFrom world.host (world.look alive) due? rounds pending) s
      (fun r s' => ∃ l last, Goes l ∧ Reason due? last r.1 ∧
        s'.1.During r.2 (own ++ (l ++ last)))
      fun _ s' => Fair s'.1.diary := by
  induction rounds generalizing s pending own with
  | zero => exact h.fair
  | succ rounds ih =>
    -- what a round has done comes before what the rounds after it do
    have hnext {s' : Terminal × ρ} {pending' : Bool} {l : List TerminalEvent} (hl : Goes l)
        (h' : s'.1.During pending' (own ++ l)) :
        Yields (decideFrom world.host (world.look alive) due? rounds pending') s'
          (fun r s'' => ∃ l last, Goes l ∧ Reason due? last r.1 ∧
            s''.1.During r.2 (own ++ (l ++ last)))
          fun _ s'' => Fair s''.1.diary := by
      refine (ih h').imp fun r s'' hr => ?_
      obtain ⟨l', last, hl', hlast, hr⟩ := hr
      exact ⟨l ++ l', last, hl.append hl', hlast, by simpa using hr⟩
    rw [decideFrom, yields_bind, yields_ask]
    have hlook := during_look world h alive
    rcases hrun : (world.look alive).run s with ⟨_ | _, s₁⟩
    · rw [hrun] at hlook
      have hprint := during_print world hlook "\n"
      rw [List.append_assoc] at hprint
      exact ⟨[], _, .done, .abandoned, hprint⟩
    · rw [hrun] at hlook
      change Yields (ask (isOver world.host due?) >>= _) s₁ _ _
      rw [yields_bind, yields_ask]
      rcases during_isOver world hlook due? with
        ⟨hover, due, now, hdue, hle, hclock⟩ | ⟨hover, l, hl, hclock⟩
      · rw [hover]
        have hprint := during_print world hclock "\n"
        rw [List.append_assoc, List.append_assoc] at hprint
        exact ⟨[], _, .done, .timedOut hdue hle, hprint⟩
      · rw [hover]
        change Yields (ask (takeTyped world.host pending) >>= _) _ _ _
        rw [yields_bind, yields_ask]
        obtain ⟨l', hl', htake⟩ := during_takeTyped world hclock
        generalize (takeTyped world.host pending).run _ = r at htake
        obtain ⟨⟨found, pending'⟩, s₂⟩ := r
        have hround := Goes.step (e := .looked true) rfl (hl.append hl')
        rw [List.append_assoc, List.append_assoc, ← List.append_assoc l,
          ← List.append_assoc [_]] at htake
        rcases found with ⟨_ | line⟩ | _ | _
        · exact ⟨_, _, hround, .ended, htake⟩
        · simp only
          rcases hline : PromptReply.ofLine? line with _ | attach
          · rw [yields_bind, yields_ask]
            have hprint := during_print world htake attachQuestion
            refine hnext (l := _ ++ [_, _]) (hround.append (.again hline .done)) ?_
            simpa [Terminal.heard] using hprint
          · exact ⟨_, _, hround, .answered (PromptReply.ofLine?_eq_some_iff.1 hline), htake⟩
        · rw [← List.append_assoc] at htake
          refine hnext (l := _ ++ [.waited]) (hround.append (.step rfl .done)) ?_
          simpa [Terminal.heard] using htake
        · exact ⟨_, _, hround, .unreadable, htake⟩

theorem during_deadline? (h : s.1.During pending own) (timeout? : Option Duration) :
    ∃ l, Goes l ∧
      ((deadline? world.host timeout?).run s).2.1.During pending (own ++ l) ∧
      ∀ front back, front.filterMap TerminalEvent.clock? = [] →
        due? timeout? (front ++ (l ++ back)) = ((deadline? world.host timeout?).run s).1 := by
  rcases timeout? with _ | timeout
  · exact ⟨[], .done, by rwa [List.append_nil], fun _ _ _ => rfl⟩
  · refine ⟨[.readClock (world.now (world.turn s).2).1], .step rfl .done,
      (during_turn world h).note rfl rfl, fun front back hfront => ?_⟩
    simp only [due?, List.filterMap_append, hfront]
    rfl

theorem yields_decide (timeout? : Option Duration) (alive : StateM ρ Bool) (rounds : Nat)
    (h : s.1.Orderly pending) (hown : ownIn s.1.diary = own) :
    Yields (decide world.host timeout? (world.look alive) pending rounds) s
      (fun r s' => ∃ l last, Goes l ∧ Reason (due? timeout? l) last r.1 ∧
        s'.1.During r.2 (own ++ (l ++ last)))
      fun _ s' => Fair s'.1.diary := by
  have hopen {s' : Terminal × ρ} {pending' : Bool} {front : List TerminalEvent}
      (hfront : Goes front) (hclock : front.filterMap TerminalEvent.clock? = [])
      (h' : s'.1.During pending' (own ++ front)) :
      Yields (do
        let deadline? ← ask (deadline? world.host timeout?)
        ask (world.host.print attachQuestion)
        decideFrom world.host (world.look alive) deadline? rounds pending') s'
        (fun r s'' => ∃ l last, Goes l ∧ Reason (due? timeout? l) last r.1 ∧
          s''.1.During r.2 (own ++ (l ++ last)))
        fun _ s'' => Fair s''.1.diary := by
    rw [yields_bind, yields_ask]
    obtain ⟨l, hl, hdeadline, hdue⟩ := during_deadline? world h' timeout?
    rw [yields_bind, yields_ask]
    have hprint := during_print world hdeadline attachQuestion
    refine (yields_decideFrom world alive _ rounds hprint).imp fun r s'' hr => ?_
    obtain ⟨l', last, hl', hlast, hr⟩ := hr
    rw [← hdue front (.printed attachQuestion :: l') hclock] at hlast
    exact ⟨_, last, hfront.append (hl.append (.step rfl hl')), hlast, by simpa using hr⟩
  cases pending with
  | true =>
    change Yields (ask world.host.discardLine >>= _) s _ _
    rw [yields_bind, yields_ask]
    obtain ⟨l, hl, hclock, h'⟩ := (h.steps (world.moves s.2).1).discard
      ((Terminal.ownIn_steps _ _).trans hown)
    exact hopen hl hclock h'
  | false =>
    have hduring := h.during h.toSound.lines_eq_nil hown
    exact hopen Goes.done rfl (by rwa [List.append_nil])

/-- **A question ends for a reason**, if it ends, and leaves the terminal to the next one. -/
theorem yields_ask (timeout? : Option Duration) (alive : StateM ρ Bool) {reader? : Option Bool}
    (rounds : Nat) (h : s.1.Awaits reader?) :
    Yields (TerminalPrompt.ask world.host timeout? (world.look alive) reader? rounds) s
      (fun r s' => ∃ l last, Goes l ∧ Reason (due? timeout? l) last r.1 ∧ s'.1.Awaits r.2 ∧
        ownIn s'.1.diary = ownIn s.1.diary ++ (l ++ last))
      fun _ s' => Fair s'.1.diary := by
  have hdecide {w : Terminal × ρ} {pending : Bool} (h' : w.1.Orderly pending)
      (hown : ownIn w.1.diary = ownIn s.1.diary) :
      Yields (decide world.host timeout? (world.look alive) pending rounds) w
        (fun r s' => ∃ l last, Goes l ∧ Reason (due? timeout? l) last r.1 ∧
          s'.1.Awaits (some r.2) ∧ ownIn s'.1.diary = ownIn s.1.diary ++ (l ++ last))
        fun _ s' => Fair s'.1.diary := by
    refine (yields_decide world timeout? alive rounds h' hown).imp fun r s' hr => ?_
    obtain ⟨l, last, hl, hlast, hr⟩ := hr
    exact ⟨l, last, hl, hlast, hr.toOrderly, hr.own_eq⟩
  cases reader? with
  | some pending =>
    change Yields (decide world.host timeout? (world.look alive) pending rounds >>= _) s _ _
    rw [yields_bind]
    exact hdecide h rfl
  | none =>
    have hturn := Terminal.Unread.steps h (world.moves s.2).1
    have hown := s.1.ownIn_steps (world.moves s.2).1
    change Yields (ask world.host.startReader >>= _) s _ _
    rw [yields_bind, Action.yields_ask]
    have hrun : world.host.startReader.run s = ((world.canRead (world.turn s).2).1,
        (world.turn s).1.start (world.canRead (world.turn s).2).1,
        (world.canRead (world.turn s).2).2) := rfl
    rw [hrun]
    rcases (world.canRead (world.turn s).2).1 with _ | _
    · refine ⟨[], [.unreadable], .done, .unreadable, hturn.note rfl nofun, ?_⟩
      exact (ownIn_snoc_of_own _ rfl).trans (congrArg (· ++ _) hown)
    · change Yields (decide world.host timeout? (world.look alive) false rounds >>= _) _ _ _
      rw [yields_bind]
      exact hdecide (w := (_, _)) hturn.start hown

theorem yields_session (questions : List (TerminalQuestion ρ)) {reader? : Option Bool}
    (h : s.1.Awaits reader?) :
    Yields (world.session questions reader?) s (fun _ s' => Fair s'.1.diary)
      fun _ s' => Fair s'.1.diary := by
  induction questions generalizing s reader? with
  | nil => exact h.fair
  | cons q questions ih =>
    rw [session, yields_bind, Action.yields_ask]
    have hbegan := h.note (e := .began q.timeout?) rfl nofun
    rw [yields_bind]
    refine (yields_ask world (s := (_, _)) q.timeout? q.alive q.rounds hbegan).imp fun r s' hr => ?_
    obtain ⟨l, last, hl, hlast, hawaits, hown⟩ := hr
    rw [yields_bind, Action.yields_ask, yields_bind]
    have hcall : ownIn s'.1.diary = ownIn s.1.diary ++ .began q.timeout? :: (l ++ last) := by
      refine hown.trans ?_
      change ownIn (s.1.diary ++ [_]) ++ _ = _
      rw [ownIn_snoc_of_own _ rfl, List.append_assoc]
      rfl
    have hreplied := hawaits.note (e := .replied r.1) rfl fun reply heq => by
      cases heq
      exact ⟨_, _, l, last, hcall, hl, hlast⟩
    exact (ih (s := (_, _)) hreplied).imp fun _ _ => id

/-- **Questions at a terminal take what is typed fairly.** Whatever is typed, whenever the helper
reads or breaks off, and however clocks and workers behave, at every moment of any questions one
after another: at most one request for a line is open; the lines are consumed in the order of
typing, each once; a line that had been handed over when a question began is taken neither by it nor
by a later one; and a question ends as the line that it took last says, because there is nothing to
read, because the worker was seen dead, or because its time was up with the worker seen alive. -/
theorem session_fair (questions : List (TerminalQuestion ρ)) (rest : ρ) :
    Fair (outcome (world.session questions none) (Terminal.fresh, rest)).2.1.diary :=
  have hfresh : Terminal.fresh.Awaits none := Terminal.unread_fresh
  (yields_session world (s := (_, rest)) questions hfresh).final

/-- A world with a schedule, where the clock stands still. -/
def scheduled : TerminalWorld (List (List TerminalMove)) where
  moves := modifyGet fun
    | [] => ([], [])
    | moves :: rest => (moves, rest)
  now := return 0
  canRead := return true

/-- Somebody types a line, and the helper hands it over. -/
def typing (line : String) : List TerminalMove := [.type (some line), .work, .work, .work]

/-- A question whose worker is seen dead after a while, and then one whose worker lives. -/
def twoQuestions : List (TerminalQuestion (List (List TerminalMove))) :=
  [⟨none, fun s => (decide (6 < s.length), s), 9⟩, ⟨none, fun s => (true, s), 9⟩]

/-- One line comes after the first question is given up, and one while the second is open. -/
def twoLines : List (List TerminalMove) :=
  List.replicate 6 [] ++ [typing "y\n"] ++ List.replicate 4 [] ++ [typing "n\n"]

/-- The line that comes after the first question is given up does not answer the second one. -/
theorem session_fair_twoQuestions :
    let ending := outcome (scheduled.session twoQuestions none) (.fresh, twoLines)
    ending.1.toOption = some [.abandoned, .answer false] ∧ Fair ending.2.1.diary :=
  ⟨by decide +kernel, session_fair scheduled twoQuestions twoLines⟩

end TerminalWorld

end FuzzCampaign
