import FuzzCampaign.Link.Switchboard
import FuzzCampaign.Proofs.BinaryForm

/-!
# Streams of frames

Messages that are written one after the other are read back in their order. Of a stream that is cut
off somewhere, those are read whose frames end before the cut. How the reading ends tells a cut
inside a message from the end of a stream, but a cut inside a length it takes for the end.

* `Frame.frame`, `Frame.stream`, `Frame.writeAll`: the bytes of messages;
* `Frame.readAll_stream_append`: frames in front of a stream are read first;
* `Frame.readAll_take_stream`: what is read of a stream up to a cut;
* `Frame.Sender`: the two directions of a link;
* **`Frame.Sender.round_trip`**: messages are read back;
* **`Frame.Sender.read_to_cut`**: how the reading ends.
-/

namespace FuzzCampaign

namespace Frame

/-! ## Reading one frame after the other -/

section

variable {α : Type} {decode : Binary.Decoder α}

theorem read_of_length_lt {bs : List UInt8} (h : bs.length < 4) : read decode bs = .ended := by
  rcases bs with _ | ⟨a, _ | ⟨b, _ | ⟨c, _ | ⟨d, bs⟩⟩⟩⟩
  · rfl
  · rfl
  · rfl
  · rfl
  · simp only [List.length_cons] at h
    omega

/-- Reading takes the end of the stream for reached when a length is incomplete. -/
theorem read_eq_ended_iff (decode : Binary.Decoder α) {bs : List UInt8} :
    read decode bs = .ended ↔ bs.length < 4 := by
  refine ⟨fun h => ?_, read_of_length_lt⟩
  rcases bs with _ | ⟨a, _ | ⟨b, _ | ⟨c, _ | ⟨d, bs⟩⟩⟩⟩
  · simp
  · simp
  · simp
  · simp
  · simp only [read] at h
    split_ifs at h
    split at h <;> contradiction

theorem length_lt_of_read {bs rest : List UInt8} {a : α} (h : read decode bs = .message a rest) :
    rest.length < bs.length := by
  rcases bs with _ | ⟨a, _ | ⟨b, _ | ⟨c, _ | ⟨d, bs⟩⟩⟩⟩
  · contradiction
  · contradiction
  · contradiction
  · contradiction
  · simp only [read] at h
    split_ifs at h
    split at h
    · injection h with _ hrest
      rw [← hrest, List.length_drop]
      simp only [List.length_cons]
      omega
    · contradiction

theorem readAllFrom_eq {fuel fuel' : Nat} {bs : List UInt8} (h : bs.length < fuel)
    (h' : bs.length < fuel') : readAllFrom decode fuel bs = readAllFrom decode fuel' bs := by
  induction fuel generalizing fuel' bs with
  | zero => exact absurd h (Nat.not_lt_zero _)
  | succ fuel ih =>
    obtain ⟨fuel', rfl⟩ := Nat.exists_eq_succ_of_ne_zero (Nat.ne_zero_of_lt h')
    rw [readAllFrom, readAllFrom]
    split
    · rename_i a rest hread
      have hrest := length_lt_of_read hread
      rw [ih (by omega) (show rest.length < fuel' by omega)]
    · rfl
    · rfl

theorem readAll_of_message {bs rest : List UInt8} {a : α} (h : read decode bs = .message a rest) :
    readAll decode bs = (a :: (readAll decode rest).1, (readAll decode rest).2) := by
  rw [readAll, readAllFrom, h, readAll]
  simp only [readAllFrom_eq (length_lt_of_read h) (Nat.lt_succ_self rest.length)]

theorem readAll_of_ended {bs : List UInt8} (h : read decode bs = .ended) :
    readAll decode bs = ([], none, []) := by
  rw [readAll, readAllFrom, h]

theorem readAll_of_failed {bs rest : List UInt8} {e : CampaignError}
    (h : read decode bs = .failed e rest) : readAll decode bs = ([], some e, rest) := by
  rw [readAll, readAllFrom, h]

end

/-! ## Frames that were written -/

/-- The frame of a message in binary form. -/
def frame (payload : List UInt8) : List UInt8 := lengthBytes payload.length ++ payload

@[simp] theorem length_frame (payload : List UInt8) :
    (frame payload).length = payload.length + 4 := by
  simp [frame, lengthBytes]

theorem write_of_le {payload : List UInt8} (h : payload.length ≤ maxLength) :
    write payload = .ok (frame payload) := if_pos h

theorem write_of_lt {payload : List UInt8} (h : maxLength < payload.length) :
    write payload = .error (tooLarge payload.length) := if_neg (Nat.not_le.2 h)

theorem value_lengthBytes {n : Nat} (h : n ≤ maxLength) :
    (UInt8.ofNat (n / 16777216 % 256)).toNat * 16777216 +
        (UInt8.ofNat (n / 65536 % 256)).toNat * 65536 +
      (UInt8.ofNat (n / 256 % 256)).toNat * 256 + (UInt8.ofNat (n % 256)).toNat = n := by
  simp only [maxLength] at h
  simp only [UInt8.toNat_ofNat']
  omega

section

variable {α : Type} {encode : α → List UInt8} {decode : Binary.Decoder α}

theorem read_lengthBytes_append {n : Nat} (h : n ≤ maxLength) (rest : List UInt8) :
    read decode (lengthBytes n ++ rest) =
      if rest.length < n then .failed cut []
      else
        match decode (rest.take n) with
        | .ok (a, _) => .message a (rest.drop n)
        | .error e => .failed (.codec e.message) (rest.drop n) := by
  rw [lengthBytes, List.cons_append, List.cons_append, List.cons_append, List.cons_append,
    List.nil_append, read, value_lengthBytes h]
  exact if_neg (Nat.not_lt.2 h)

theorem read_frame_append (h : Binary.Carries encode decode) {m : α}
    (hm : (encode m).length ≤ maxLength) (rest : List UInt8) :
    read decode (frame (encode m) ++ rest) = .message m rest := by
  have hword : (encode m).length < word64 := Nat.lt_of_le_of_lt hm (by decide)
  have hdecode := h m [] hword
  rw [List.append_nil] at hdecode
  rw [frame, List.append_assoc, read_lengthBytes_append hm,
    if_neg (Nat.not_lt.2 (by rw [List.length_append]; exact Nat.le_add_right _ _)), List.take_left,
    hdecode, List.drop_left]

theorem read_take_frame (decode : Binary.Decoder α) {payload : List UInt8}
    (h : payload.length ≤ maxLength) {r : Nat} (hr : r < (frame payload).length) :
    read decode ((frame payload).take r) = if r < 4 then .ended else .failed cut [] := by
  rw [length_frame] at hr
  split
  · exact read_of_length_lt (by rw [List.length_take]; omega)
  · have htake : (frame payload).take r = lengthBytes payload.length ++ payload.take (r - 4) := by
      rw [frame, List.take_append, List.take_of_length_le (by simp [lengthBytes]; omega)]
      rfl
    rw [htake, read_lengthBytes_append h, if_pos (by rw [List.length_take]; omega)]

/-! ## Streams -/

/-- The frames of messages, one after the other. -/
def stream (encode : α → List UInt8) (ms : List α) : List UInt8 :=
  ms.flatMap fun m => frame (encode m)

@[simp] theorem stream_nil : stream encode [] = [] := rfl

@[simp] theorem stream_cons (m : α) (ms : List α) :
    stream encode (m :: ms) = frame (encode m) ++ stream encode ms := rfl

/-- Write messages one after the other, up to the first that is refused: the bytes on the stream and
the refusal. -/
def writeAll (encode : α → List UInt8) : List α → List UInt8 × Option CampaignError
  | [] => ([], none)
  | m :: ms =>
    match write (encode m) with
    | .ok bytes => (bytes ++ (writeAll encode ms).1, (writeAll encode ms).2)
    | .error e => ([], some e)

theorem writeAll_append {ms : List α} (h : ∀ m ∈ ms, (encode m).length ≤ maxLength)
    (later : List α) : writeAll encode (ms ++ later) =
      (stream encode ms ++ (writeAll encode later).1, (writeAll encode later).2) := by
  induction ms with
  | nil => rfl
  | cons m ms ih =>
    rw [List.cons_append, writeAll, write_of_le (h m List.mem_cons_self),
      ih fun m' hm' => h m' (List.mem_cons_of_mem _ hm')]
    simp

theorem readAll_stream_append (h : Binary.Carries encode decode) {ms : List α}
    (hms : ∀ m ∈ ms, (encode m).length ≤ maxLength) (rest : List UInt8) :
    readAll decode (stream encode ms ++ rest) =
      (ms ++ (readAll decode rest).1, (readAll decode rest).2) := by
  induction ms with
  | nil => rfl
  | cons m ms ih =>
    have hread := read_frame_append h (hms m List.mem_cons_self) (stream encode ms ++ rest)
    rw [stream_cons, List.append_assoc, readAll_of_message hread,
      ih fun m' hm' => hms m' (List.mem_cons_of_mem _ hm')]
    rfl

/-- What is read of frames and the beginning of one more. -/
theorem readAll_stream_append_take (h : Binary.Carries encode decode) {ms : List α}
    (hms : ∀ m ∈ ms, (encode m).length ≤ maxLength) {payload : List UInt8}
    (hpayload : payload.length ≤ maxLength) {r : Nat} (hr : r < (frame payload).length) :
    readAll decode (stream encode ms ++ (frame payload).take r) =
      (ms, if r < 4 then none else some cut, []) := by
  have hread := read_take_frame decode hpayload hr
  rw [readAll_stream_append h hms]
  split_ifs at hread ⊢
  · rw [readAll_of_ended hread, List.append_nil]
  · rw [readAll_of_failed hread, List.append_nil]

/-- **Of a stream up to a cut the messages are read whose frames end there or before.** -/
theorem readAll_take_stream (h : Binary.Carries encode decode) {ms : List α}
    (hms : ∀ m ∈ ms, (encode m).length ≤ maxLength) (k j : Nat) :
    (readAll decode ((stream encode ms).take k)).1[j]? =
      if (stream encode (ms.take (j + 1))).length ≤ k then ms[j]? else none := by
  induction ms generalizing k j with
  | nil =>
    have hread : readAll decode [] = ([], none, []) := readAll_of_ended rfl
    simp [hread]
  | cons m ms ih =>
    have hm := hms m List.mem_cons_self
    have htail : ∀ m' ∈ ms, (encode m').length ≤ maxLength :=
      fun m' hm' => hms m' (List.mem_cons_of_mem _ hm')
    rcases Nat.lt_or_ge k (frame (encode m)).length with hk | hk
    · -- the cut is inside the first frame
      have hnone : ¬(stream encode ((m :: ms).take (j + 1))).length ≤ k := by
        rw [List.take_succ_cons, stream_cons, List.length_append]
        omega
      have hread := readAll_stream_append_take h (List.forall_mem_nil _) hm hk
      rw [if_neg hnone, stream_cons, List.take_append_of_le_length (Nat.le_of_lt hk)]
      rw [stream_nil, List.nil_append] at hread
      rw [hread, List.getElem?_nil]
    · -- the first frame is whole, and what is left of the cut falls on the others
      have hread := readAll_stream_append h (List.forall_mem_singleton.2 hm)
        ((stream encode ms).take (k - (frame (encode m)).length))
      rw [stream_cons, stream_nil, List.append_nil] at hread
      rw [stream_cons, List.take_append, List.take_of_length_le hk, hread, List.take_succ_cons,
        stream_cons, List.length_append, List.singleton_append]
      cases j with
      | zero => simpa using hk
      | succ j =>
        rw [List.getElem?_cons_succ, List.getElem?_cons_succ, ih htail]
        congr 1
        rw [Nat.le_sub_iff_add_le' hk]

end

/-! ## The server -/

/-- The server takes a connection for closed by its worker when fewer than four bytes are left. -/
theorem closed_iff (board : Switchboard) (place : Nat) (bs : List UInt8) :
    (board.route place (read Binary.decodeWorker bs)).2 = .closed none ↔ bs.length < 4 := by
  rw [← read_eq_ended_iff Binary.decodeWorker]
  cases read Binary.decodeWorker bs with
  | ended => simp [Switchboard.route]
  | failed e rest => simp [Switchboard.route]
  | message m rest =>
    rw [Switchboard.route]
    cases board.deliver place m <;> simp

/-! ## Both directions of a link -/

/-- Who sends. -/
inductive Sender
  | worker
  | orchestrator
  deriving DecidableEq, Repr

namespace Sender

/-- The messages of a sender. -/
abbrev Message : Sender → Type
  | .worker => Dispatch
  | .orchestrator => Command

/-- The binary form of the messages of a sender. -/
def encode : (s : Sender) → s.Message → List UInt8
  | .worker => Binary.encodeWorker
  | .orchestrator => Binary.encodeCommand

/-- The messages of a sender, from their binary form. -/
def decode : (s : Sender) → Binary.Decoder s.Message
  | .worker => Binary.decodeWorker
  | .orchestrator => Binary.decodeCommand

theorem carries : ∀ s : Sender, Binary.Carries s.encode s.decode
  | .worker => Binary.carries_worker
  | .orchestrator => Binary.carries_command

theorem length_message_lt (e : Envelope) :
    e.message.toList.length < (Sender.worker.encode (.exception (some e))).length := by
  have htext := Binary.length_le_flatMap (fun c => String.utf8EncodeChar_ne_nil (c := c))
    e.message.toList
  simp only [encode, Binary.encodeWorker, Binary.option, Binary.envelope, Binary.text, Utf8.encode,
    List.length_append, List.length_cons, Binary.variant, Binary.length_number]
  omega

theorem exists_text (n : Nat) : ∃ s : String, s.toList.length = n :=
  ⟨String.ofList (List.replicate n 'a'), by simp⟩

/-- There are failures whose text is too long for a frame. -/
theorem exists_too_large : ∃ m, maxLength < (Sender.worker.encode m).length := by
  obtain ⟨text, htext⟩ := exists_text maxLength
  have hlength := length_message_lt ⟨1, "panic", text, .testBody, []⟩
  rw [htext] at hlength
  exact ⟨_, hlength⟩

/-- **Messages of either side are read back from their frames**: all of them from the whole stream,
and up to any cut those whose frames end there or before. A message that is too long is refused, and
the stream ends with the frames before it. -/
theorem round_trip (s : Sender) (ms : List s.Message)
    (hms : ∀ m ∈ ms, (s.encode m).length ≤ maxLength) :
    (∀ m ∈ ms, write (s.encode m) = .ok (frame (s.encode m))) ∧
      writeAll s.encode ms = (stream s.encode ms, none) ∧
      readAll s.decode (stream s.encode ms) = (ms, none, []) ∧
      (∀ k j, (readAll s.decode ((stream s.encode ms).take k)).1[j]? =
        if (stream s.encode (ms.take (j + 1))).length ≤ k then ms[j]? else none) ∧
      ∀ m, maxLength < (s.encode m).length →
        write (s.encode m) = .error (tooLarge (s.encode m).length) ∧
          ∀ later, writeAll s.encode (ms ++ m :: later) =
            (stream s.encode ms, some (tooLarge (s.encode m).length)) := by
  have hended : readAll s.decode [] = ([], none, []) := readAll_of_ended rfl
  refine ⟨fun m hm => write_of_le (hms m hm), ?_, ?_, readAll_take_stream s.carries hms, ?_⟩
  · have hwrite := writeAll_append hms []
    rwa [writeAll, List.append_nil, List.append_nil] at hwrite
  · have hread := readAll_stream_append s.carries hms []
    rwa [hended, List.append_nil, List.append_nil] at hread
  · intro m hm
    refine ⟨write_of_lt hm, fun later => ?_⟩
    rw [writeAll_append hms, writeAll, write_of_lt hm, List.append_nil]

/-- What a worker sends: a failure with a value on its call stack, and coverage. -/
def session : List Dispatch :=
  [.hello 3 1,
    .exception (some ⟨1, "panic", "ü < 7", .testBody, [⟨"a.rs", 7, "f", [("x", "9")]⟩]⟩),
    .coverage ⟨.ofRecords [("a.rs", ⟨1, 2, 3, 4⟩, ⟨"f", 5⟩)], .empty⟩, .finished]

/-- A session and commands are read back, its greeting from the first twenty bytes on, and there is
a message that is refused. -/
theorem round_trip_session :
    readAll Binary.decodeWorker (stream Binary.encodeWorker session) = (session, none, []) ∧
      (readAll Binary.decodeWorker ((stream Binary.encodeWorker session).take 20)).1[0]? =
        some (.hello 3 1) ∧
      (∃ m, write (Binary.encodeWorker m) = .error (tooLarge (Binary.encodeWorker m).length)) ∧
      readAll Binary.decodeCommand (stream Binary.encodeCommand [.decision true, .shutdown]) =
        ([.decision true, .shutdown], none, []) := by
  obtain ⟨-, -, hall, hcut, hrefused⟩ := round_trip .worker session (by decide +kernel)
  obtain ⟨-, -, hcommands, -⟩ :=
    round_trip .orchestrator [.decision true, .shutdown] (by decide +kernel)
  obtain ⟨m, hm⟩ := exists_too_large
  exact ⟨hall, (hcut 20 0).trans (by decide +kernel), ⟨m, (hrefused m hm).1⟩, hcommands⟩

/-! ## How a stream ends -/

/-- **The end of a stream.** Fewer than four bytes are taken for the end, by the reader and by the
server, which then regards the connection as closed by its worker. So a stream that is cut inside a
message ends in an error, and one that is cut inside the length before it ends cleanly. -/
theorem read_to_cut (s : Sender) {before : List s.Message}
    (hbefore : ∀ m ∈ before, (s.encode m).length ≤ maxLength) {m : s.Message}
    (hm : (s.encode m).length ≤ maxLength) {r : Nat} (hr : r < (frame (s.encode m)).length) :
    readAll s.decode (stream s.encode before ++ (frame (s.encode m)).take r) =
        (before, if r < 4 then none else some cut, []) ∧
      (∀ bs, read s.decode bs = .ended ↔ bs.length < 4) ∧
      ∀ (board : Switchboard) (place : Nat) (bs : List UInt8),
        (board.route place (read Binary.decodeWorker bs)).2 = .closed none ↔ bs.length < 4 :=
  ⟨readAll_stream_append_take s.carries hbefore hm hr, fun _ => read_eq_ended_iff s.decode,
    closed_iff⟩

/-- A message cut inside its length and inside its body. -/
theorem read_to_cut_finished :
    readAll Binary.decodeWorker
        (stream Binary.encodeWorker [.finished] ++ (frame (Binary.encodeWorker .finished)).take 2) =
      ([.finished], none, []) ∧
    readAll Binary.decodeWorker
        (stream Binary.encodeWorker [.finished] ++ (frame (Binary.encodeWorker .finished)).take 6) =
      ([.finished], some cut, []) := by
  have hfits : ∀ m ∈ ([.finished] : List Dispatch),
      (Sender.worker.encode m).length ≤ maxLength := by decide
  have hfinished := hfits .finished (List.mem_singleton_self _)
  exact ⟨(read_to_cut .worker hfits hfinished (by decide)).1,
    (read_to_cut .worker hfits hfinished (by decide)).1⟩

/-- Bytes are left when the reader sees the end, and of two frames a part of the second. -/
theorem ended_with_bytes_left :
    ¬(∀ bs, read Binary.decodeWorker bs = .ended → bs = []) ∧
      readAll Binary.decodeWorker ((stream Binary.encodeWorker [.finished, .finished]).take 10) =
        ([.finished], none, []) := by
  refine ⟨fun h => ?_, by decide +kernel⟩
  have hbytes := h [0, 0] rfl
  contradiction

end Sender

end Frame

end FuzzCampaign
