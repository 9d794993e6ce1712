import FuzzCampaign.Campaign.Plan
import FuzzCampaign.Proofs.SeedText

/-!
# Configurations read back

The orchestrator hands a worker process its task as JSON in the environment, and a plan is stored as
JSON. What writes a value and what reads it are separate, and meet field by field.

* `Seed.reads_json`, `Network.reads_json`, `Duration.reads_json`: the parts;
* `WorkerTask.reads_json`, `CampaignPlan.reads_json`: the records;
* **`configurations_read_back`**: a worker has the task it was started with, whatever it inherits
  from the orchestrator's environment, and a plan is read back from both of its texts.
-/

namespace FuzzCampaign

open Json

/-! ## Seeds, networks and durations -/

theorem Seed.reads_json (s : Seed) : Reads reader 0 s.json s := by
  refine reads_parsed ?_
  rw [ofHex_hex]
  rfl

theorem Network.reads_json (n : Network) : Reads reader 0 n.json n := by
  have hfind : (all.map fun n => (n.name, n)).find? (fun p => p.1 = n.name) = some (n.name, n) := by
    cases n <;> decide
  exact reads_choice hfind

namespace Duration

theorem ofParts?_toNat (d : Duration) : ofParts? d.seconds.toNat d.nanos.toNat = some d := by
  have hnanos := d.nanos_lt
  have hseconds := d.seconds.toNat_lt
  have hmod : d.nanos.toNat % 1000000000 = d.nanos.toNat := Nat.mod_eq_of_lt hnanos
  have hdiv : d.nanos.toNat / nanosPerSecond = 0 := Nat.div_eq_of_lt hnanos
  have hfits : d.seconds.toNat + d.nanos.toNat / nanosPerSecond < word64 := by
    rw [hdiv, Nat.add_zero]
    exact hseconds
  rw [ofParts?, dif_pos ⟨by omega, hfits⟩]
  simp only [hdiv, hmod, Nat.add_zero, UInt64.ofNat_toNat, UInt32.ofNat_toNat]

theorem reads_json (d : Duration) : Reads reader 1 d.json d := by
  have hnanos : (UInt64.ofNat d.nanos.toNat).toNat = d.nanos.toNat :=
    UInt64.toNat_ofNat_of_lt' (Nat.lt_trans d.nanos.toNat_lt (by decide))
  have hparts : ofParts? d.seconds.toNat (UInt64.ofNat d.nanos.toNat).toNat = some d := by
    rw [hnanos, ofParts?_toNat]
  refine reads_recordWith _ _ _ (.cons ((reads_unsigned d.seconds.toNat_lt _).field _ _ _)
    (.cons ((reads_unsigned (by rw [hnanos]; exact d.nanos.toNat_lt) _).field _ _ _) .nil)) ?_
    (by decide)
  simp only [hparts]

theorem opens_json (d : Duration) (cs : List Char) (h : Spells d.json cs) : Opens cs :=
  opens_object h

end Duration

/-! ## Tasks -/

theorem toNat_ofNat_port (p : UInt16) : (UInt64.ofNat p.toNat).toNat = p.toNat :=
  UInt64.toNat_ofNat_of_lt' (Nat.lt_trans p.toNat_lt (by decide))

theorem reads_port (p : UInt16) (expected : String) :
    Reads (Reader.unsigned word16 expected) 0 (.ofNat p.toNat) p.toNat := by
  have hport : (UInt64.ofNat p.toNat).toNat < word16 := by
    rw [toNat_ofNat_port]
    exact p.toNat_lt
  have hread := reads_unsigned hport expected
  rwa [toNat_ofNat_port] at hread

namespace WorkerTask

theorem reads_json (s : WorkerTask) : Reads reader 1 s.json s := by
  have hread : Reads reader 1 s.json
      { s with index := UInt64.ofNat s.index.toNat, port := UInt16.ofNat s.port.toNat } :=
    reads_record _
      (.cons ((reads_unsigned s.index.toNat_lt _).field _ _ _)
      (.cons ((reads_text s.test).field _ _ _)
      (.cons (s.seed.reads_json.field _ _ _)
      (.cons ((reads_port s.port _).field _ _ _)
      (.cons ((reads_textFor _ s.logPath).field _ _ _)
      (.cons ((reads_boolean s.tee).field _ _ _)
      (.cons (s.network.reads_json.field _ _ _)
      (.cons ((reads_boolean s.coverage).field _ _ _) .nil)))))))) (by decide)
  simpa using hread

/-- The text of a task can stand in an environment, which has no place for the character zero. -/
theorem printable_json (s : WorkerTask) : Printable s.json.compactChars := by
  refine printable_object ?_
  simp only [List.forall_mem_cons]
  refine ⟨printable_decimal _, printable_quote _, printable_quote _, printable_decimal _,
    printable_quote _, printable_bool _, printable_quote _, printable_bool _, nofun⟩

theorem run_reader (s : WorkerTask) : Reader.run reader s.json.compact = .ok s :=
  s.reads_json.run_compact (by decide)

theorem lookup_taskVariable (s : WorkerTask) (address : String)
    (inherited : List (String × String)) :
    (s.environment address ++ inherited).lookup taskVariable = some s.json.compact := by
  simp [environment]

theorem lookup_addressVariable (s : WorkerTask) (address : String)
    (inherited : List (String × String)) :
    (s.environment address ++ inherited).lookup addressVariable = some address := by
  have hne : (addressVariable == taskVariable) = false := by decide
  simp [environment, List.lookup_cons, hne]

end WorkerTask

/-! ## Plans -/

theorem CampaignPlan.reads_json (c : CampaignPlan) : Reads reader 2 c.json c := by
  have hseeds : Reads (Reader.sequence Seed.reader) 1 (.list (c.seeds.map Seed.json)) c.seeds := by
    have hread := reads_sequence (fun s (_ : s ∈ c.seeds) => s.reads_json)
      (fun _ _ _ => opens_text)
    rwa [List.map_id'] at hread
  have htimeout := reads_option c.decisionTimeout Duration.reads_json Duration.opens_json
  have hread : Reads reader 2 c.json
      { c with
        processCount := UInt64.ofNat c.processCount.toNat
        coverageWorkers := UInt64.ofNat c.coverageWorkers.toNat
        basePort := UInt16.ofNat c.basePort.toNat } :=
    reads_record _
      (.cons (((reads_unsigned c.processCount.toNat_lt _).field _ _ _).mono (by omega))
      (.cons (hseeds.field _ _ _)
      (.cons (((reads_textFor _ c.logsDir).field _ _ _).mono (by omega))
      (.cons (((reads_boolean c.passive).field _ _ _).mono (by omega))
      (.cons ((c.network.reads_json.field _ _ _).mono (by omega))
      (.cons (((reads_unsigned c.coverageWorkers.toNat_lt _).field _ _ _).mono (by omega))
      (.cons (((reads_boolean c.verboseCoverage).field _ _ _).mono (by omega))
      (.cons (((reads_port c.basePort _).field _ _ _).mono (by omega))
      (.cons (c.pollInterval.reads_json.field _ _ _)
      (.cons (((reads_textFor _ c.coverageDir).field _ _ _).mono (by omega))
      (.cons (htimeout.fieldOption _ _ _)
      (.cons (c.reapTimeout.reads_json.field _ _ _)
      (.cons (c.deadWorkerGrace.reads_json.field _ _ _) .nil))))))))))))) (by decide)
  simpa using hread

/-- **Configurations survive their way as text.** A worker process finds in its environment the task
and the address it was started with, whatever else it inherits; no text it is started with has a
character that cannot stand there. A plan is read back from its compact and from its indented
text. -/
theorem configurations_read_back :
    (∀ (task : WorkerTask) (address : String) (inherited : List (String × String)),
      WorkerTask.ofEnvironment
          ((task.environment address ++ inherited).lookup WorkerTask.taskVariable)
          ((task.environment address ++ inherited).lookup WorkerTask.addressVariable) =
        .ok (some (task, address)) ∧
      Printable task.json.compact.toList) ∧
    ∀ plan : CampaignPlan, Reader.run CampaignPlan.reader plan.json.compact = .ok plan ∧
      Reader.run CampaignPlan.reader plan.json.pretty = .ok plan := by
  refine ⟨fun task address inherited => ⟨?_, ?_⟩, fun plan => ⟨?_, ?_⟩⟩
  · rw [WorkerTask.lookup_taskVariable, WorkerTask.lookup_addressVariable]
    simp only [WorkerTask.ofEnvironment, task.run_reader]
  · rw [Value.compact, String.toList_ofList]
    exact task.printable_json
  · exact plan.reads_json.run_compact (by decide)
  · exact plan.reads_json.run_pretty (by decide)

end FuzzCampaign
