import FuzzCampaign.Json.Record

/-!
# Durations

A duration has whole seconds and nanoseconds, of which there are fewer than a second's.

* `Duration`, `Duration.ofMillis`, `Duration.nanoseconds`, `Duration.millis`;
* `Duration.json`, `Duration.reader`: the JSON form; more nanoseconds than a second has carry over.
-/

namespace FuzzCampaign

open Json

/-- The nanoseconds of a second. -/
def nanosPerSecond : Nat := 1000000000

/-- A span of time. -/
structure Duration where
  seconds : UInt64
  nanos : UInt32
  nanos_lt : nanos.toNat < 1000000000 := by decide
  deriving DecidableEq

namespace Duration

/-- No time. -/
def zero : Duration := ⟨0, 0, by decide⟩

instance : Inhabited Duration := ⟨zero⟩

/-- The duration of seconds and nanoseconds, if its seconds fit into their word. -/
def ofParts? (seconds nanos : Nat) : Option Duration :=
  if h : nanos % 1000000000 < 1000000000 ∧ seconds + nanos / nanosPerSecond < word64 then
    some ⟨UInt64.ofNat (seconds + nanos / nanosPerSecond), UInt32.ofNat (nanos % 1000000000), by
      have : (UInt32.ofNat (nanos % 1000000000)).toNat = nanos % 1000000000 := by
        rw [UInt32.toNat_ofNat', Nat.mod_eq_of_lt]
        omega
      omega⟩
  else none

/-- The duration of so many milliseconds. -/
def ofMillis (ms : Nat) : Duration := (ofParts? (ms / 1000) (ms % 1000 * 1000000)).getD zero

/-- The duration of so many seconds. -/
def ofSeconds (s : Nat) : Duration := (ofParts? s 0).getD zero

/-- The length in nanoseconds. -/
def nanoseconds (d : Duration) : Nat := d.seconds.toNat * nanosPerSecond + d.nanos.toNat

/-- The whole milliseconds, as far as a word holds them. -/
def millis (d : Duration) : Nat := d.nanoseconds / 1000000 % word64

/-- The JSON of a duration. -/
def json (d : Duration) : Value :=
  .object [("secs", .number (.unsigned d.seconds)), ("nanos", .ofNat d.nanos.toNat)]

/-- The seconds and nanoseconds of a duration that is being read. -/
structure Parts where
  seconds : Nat
  nanos : Nat

/-- The reader of a duration. -/
def reader : Reader Duration :=
  Reader.recordWith "Duration" "struct Duration"
    [.of "secs" (Reader.unsigned word64 "u64") fun n (p : Parts) => { p with seconds := n },
      .of "nanos" (Reader.unsigned word32 "u32") fun n p => { p with nanos := n }]
    ⟨0, 0⟩ (fun name => some s!"unknown field `{name}`, expected `secs` or `nanos`")
    fun p =>
      match ofParts? p.seconds p.nanos with
      | some d => .ok d
      | none => .error "overflow deserializing Duration"

end Duration

end FuzzCampaign
